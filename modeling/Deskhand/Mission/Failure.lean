import Deskhand.Expr.Error
import Deskhand.Record.Shape
import Deskhand.Text.Search
import Deskhand.World.Files
import Deskhand.World.Platform

/-!
# Failures of steps

Why a step was not done. A failure ends its step only; the mission goes on behind it.
-/

namespace Deskhand

/-- Why a step was not done. -/
inductive Failure where
  | expression (e : ExprError)
  | platform (fault : PlatformFault)
  | arguments (fault : ShapeFault)
  | notJson
  | file (fault : FileFault)
  | notNumber (v : Value)
  | counterNotNumber (counter : String)
  | tooLong (seconds : Binary64)
  | infiniteRange (lo hi : Binary64)
  | noDataName
  | noTarget
  | cannotExtend (how : String) (v : Value)
  | cannotMerge (extra current : Value)
  | notList (target : String)
  | nothingToPop (target : String)
  | popOutOfRange (index : Int) (target : String)
  | notMapping (target : String)
  | noNumberIn (text : String)
  | exited (script : String) (status : Nat) (err : String)
  | noClickTarget (name kind : String)
  | noDestination
  | unknownClick (action : String)
  | noAmount
  | noKeys
  | tooManyKeys (n : Nat)
  | oneDestination
  | noWindow (n : Binary64)
  | badPattern (source : String)
  | noCalibrationAmount
  | noMarker
  | noLocation (name : String)
  | markerNotFound (marker : String)
  | noLineText
  | lineNotFound (text : String)

/-- How many keys can be pressed together. -/
def maxChord : Nat := 4

def Failure.message : Failure → String
  | expression e => e.message
  | platform fault => fault.message
  | arguments fault => s!"Invalid arguments: {fault.message}"
  | notJson => "Invalid arguments: <parse error>"
  | file fault => s!"I/O error: {fault.message}"
  | notNumber v => s!"not a number: {v.compact}"
  | counterNotNumber counter => s!"loop counter '{counter}' is not a number"
  | tooLong seconds =>
    s!"cannot wait {NumberLayout.plain.render seconds} seconds: cannot convert float seconds to " ++
      "Duration: value is either too big or NaN"
  | infiniteRange lo hi =>
    s!"random range {NumberLayout.plain.render lo}..{NumberLayout.plain.render hi} is not finite"
  | noDataName => "data_name is empty"
  | noTarget => "'to' is empty"
  | cannotExtend how v => s!"cannot {how} to {v.compact}"
  | cannotMerge extra current => s!"cannot merge {extra.compact} into {current.compact}"
  | notList target => s!"'{target}' is not a list"
  | nothingToPop target => s!"pop from empty list '{target}'"
  | popOutOfRange index target => s!"pop index {index} out of range for '{target}'"
  | notMapping target => s!"'{target}' is not a mapping"
  | noNumberIn text => s!"no number in '{text}'"
  | exited script status err => s!"{script} exited with exit status: {status}: {err}"
  | noClickTarget name kind => s!"click target '{name}' ({kind}) not found"
  | noDestination => "drag needs a destination in action_args"
  | unknownClick action => s!"unknown click action '{action}'"
  | noAmount => "scroll amount missing"
  | noKeys => "no keys given"
  | tooManyKeys n => s!"{n} keys in one chord; at most {maxChord} allowed"
  | oneDestination => "mouse move needs both x and y destinations"
  | noWindow n => s!"no window at position {NumberLayout.plain.render n}"
  | badPattern source => s!"bad pattern '{source}': <regex error>"
  | noCalibrationAmount => "calibration needs a non-zero amount"
  | noMarker => "calibration marker is empty"
  | noLocation name => s!"'{name}' holds no location"
  | markerNotFound marker => s!"calibration marker '{marker}' not on screen"
  | noLineText => "'text' is empty"
  | lineNotFound text => s!"no line containing '{text}'"

/-- The text under which a failed step is reported: its type without spaces, its index and the
cause. -/
def failureTag (kind : String) (index : Nat) (detail : String) : String :=
  "Error" ++ Text.replace " " "" kind ++ s!":{index}: {detail}"

end Deskhand
