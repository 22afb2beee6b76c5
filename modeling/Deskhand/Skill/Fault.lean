import Deskhand.Record.Shape
import Deskhand.World.Files

/-!
# Structural faults

What keeps a skill from being loaded, resolved or run to its end. Faults inside a single step are
none of these: they only fail the step.
-/

namespace Deskhand

/-- What is wrong with a document as a whole. -/
inductive DocumentFault where
  | notJson
  | notMapping
  | badHeader (fault : ShapeFault)
  | badStepKey (key : String)
  | duplicateStep (number : Nat)
  deriving DecidableEq

def DocumentFault.message : DocumentFault → String
  | notJson => "<parse error>"
  | notMapping => "top level must be a mapping"
  | badHeader fault => s!"bad header: {fault.message}"
  | badStepKey key => s!"bad step key '{key}'"
  | duplicateStep number => s!"duplicate step number {number}"

/-- What is wrong with a step of a document. -/
inductive StepFault where
  | notMapping
  | missingType
  | badArguments (fault : ShapeFault)
  | noBound
  deriving DecidableEq

def StepFault.message : StepFault → String
  | notMapping => "step record must be a mapping"
  | missingType => "missing 'type'"
  | badArguments fault => fault.message
  | noBound => "Repeat needs either 'until' or 'count'"

/-- A structural fault. -/
inductive SkillFault where
  | malformed (document : String) (fault : DocumentFault)
  | invalidStep (step : String) (fault : StepFault)
  | unmatchedStub (stub step : String)
  | unclosedConstruct (step : String)
  | missingFunction (name : String)
  | missingSkill (name : String)
  | unknownStepType (kind step : String)
  | unknownLabel (target step : String)
  | stackUnderflow (index : Nat)
  | nonEmptyCallStack (size : Nat)
  | invalidConfig (path : String)
  | file (fault : FileFault)
  deriving DecidableEq

def SkillFault.message : SkillFault → String
  | malformed document fault => s!"Malformed skill document: {document}: {fault.message}"
  | invalidStep step fault => s!"Invalid step '{step}': {fault.message}"
  | unmatchedStub stub step => s!"Unmatched stub '{stub}' at {step}"
  | unclosedConstruct step => s!"Construct opened at {step} is never closed"
  | missingFunction name => s!"Function not found: {name}"
  | missingSkill name => s!"Skill not found: {name}"
  | unknownStepType kind step => s!"Unknown step type '{kind}' at {step}"
  | unknownLabel target step => s!"Unknown goto target '{target}' at {step}"
  | stackUnderflow index => s!"Call stack underflow at step {index}"
  | nonEmptyCallStack size => s!"Program ended with {size} entries left on the call stack"
  | invalidConfig path => s!"Invalid run configuration: {path}: <parse error>"
  | file fault => s!"I/O error: {fault.message}"

end Deskhand
