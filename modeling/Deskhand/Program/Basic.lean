import Deskhand.Recovery.Config
import Deskhand.Skill.Document

/-!
# Programs

A program is a list of instructions in which every transfer of control names the index it goes to.
The documents that it was made from occupy one range of indices each.
-/

namespace Deskhand

/-- Where an instruction comes from. -/
structure Address where
  skill : String
  step : Nat
  /-- Whether it stands for no step of its own. -/
  synthetic : Bool
  deriving DecidableEq

/-- The text of an address. -/
def Address.render (a : Address) : String :=
  a.skill ++ "!step " ++ toString a.step ++ (if a.synthetic then "+" else "")

/-- The marks that documents are structured by. -/
inductive StubKind where
  | startSkill (name : String)
  | endSkill (name : String)
  | startFunction (name param : String)
  | endFunction (name : String)
  | orElse
  | endCondition
  | endLoop
  | breakLoop
  | tag (name : String)
  /-- Any other text; it does nothing. -/
  | label (text : String)
  deriving DecidableEq

/-- What an instruction does. -/
inductive Op where
  | checkCondition (condition : String) (ifElse ifEnd : Nat)
  /-- With an empty guard, runs while the counter is below the count. -/
  | loop (guard count counter : String) (stop : Nat)
  /-- Goes elsewhere, after counting one up if it closes a counted loop. -/
  | goto (target : Nat) (increment : Option String)
  | stub (kind : StubKind)
  | callFunction (name : String) (entry : Nat) (param arg output : String)
  | giveBack (value : String)
  | useSkill (name : String) (entry : Nat) (arg output : String)
  | overloadSkill (name : String) (entry : Nat) (arg output : String)
  /-- Entered by recovery only; otherwise control goes on behind its block. -/
  | exceptionHandler (args : HandlerArgs) (stop : Nat)
  | endException
  /-- The end of the main document. -/
  | finish
  /-- Any other step, known by its name when it is run. -/
  | action (kind : String) (args : Entries Value)

/-- The name of a step type. -/
def Op.kind : Op → String
  | checkCondition .. => "Check Condition"
  | loop .. => "Repeat"
  | goto .. => "Goto"
  | stub _ => "Stub"
  | callFunction .. => "Call Function"
  | giveBack _ => "Return"
  | useSkill .. => "Use Skill"
  | overloadSkill .. => "Overload Skill"
  | exceptionHandler .. => "Exception Handler"
  | endException => "End Exception"
  | finish => "Finish"
  | action kind _ => kind

structure Instruction where
  address : Address
  op : Op

/-- The range of indices of a document. -/
structure DocumentSpan where
  name : String
  start : Nat
  stop : Nat
  deriving DecidableEq

structure Program where
  name : String
  skid : String
  instructions : Array Instruction
  /-- The first instruction of every function. -/
  functions : Entries Nat
  /-- The first instruction of every skill. -/
  skills : Entries Nat
  /-- The exception handler of every document that has one. -/
  handlers : Entries Nat
  documents : List DocumentSpan

namespace Program

/-- The index that stands for the end of the program. -/
def sentinel : Nat := 1000000000

def size (p : Program) : Nat := p.instructions.size

/-- The document that an index belongs to. -/
def documentAt? (index : Nat) (p : Program) : Option DocumentSpan :=
  p.documents.find? fun d => d.start ≤ index ∧ index < d.stop

/-- The exception handler for an index: that of its document, or else that of the main document. -/
def handlerFor? (index : Nat) (p : Program) : Option Nat :=
  let handlerOf (d : Option DocumentSpan) : Option Nat := d.bind fun d => p.handlers.get? d.name
  (handlerOf (p.documentAt? index)).or (handlerOf p.documents.head?)

end Program

/-- The step types that need no external operation. -/
def builtinStepTypes : List String :=
  ["Check Condition", "Repeat", "Goto", "Stub", "Call Function", "Return", "Use Skill",
    "Overload Skill", "Exception Handler", "End Exception", "Halt", "Create Data", "Fill Data",
    "Load Data", "Save Data", "List Dir", "Check Existence", "Text To Number", "Call Extern",
    "Wait", "Wait Until", "Create Dir", "Read File", "Write File", "Delete File", "Extract Info",
    "Save Html", "Search", "Search Anchor Info", "Search Word Line", "Search Scroll",
    "Text Line Location Record", "Calibrate Scroll", "Mouse Click", "Mouse Move", "Mouse Scroll",
    "Key Input", "Text Input", "App Open", "Open App", "Get Windows Info",
    "Bring Window To Front"]

end Deskhand
