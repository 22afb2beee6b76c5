import Deskhand.Program.Basic

/-!
# The code of a step

What instructions a step becomes, before anything is known about where control goes: every target
is still the end of the program, and what has to be looked up later is noted beside the code.
-/

namespace Deskhand

/-- A reference that is looked up when all documents are there. -/
inductive Reference where
  | label (text : String)
  | function (name : String)
  | skill (key : String)
  deriving DecidableEq

/-- The code of a step: an instruction, perhaps one ahead of it that no step stands for, and what
the instruction refers to. -/
structure StepCode where
  setup : Option Op
  op : Op
  refers : Option Reference

namespace StepCode

/-- An instruction that refers to nothing. -/
def just (op : Op) : StepCode := ⟨none, op, none⟩

/-- An instruction that refers to something. -/
def referring (op : Op) (reference : Reference) : StepCode := ⟨none, op, some reference⟩

/-- The key of the skill that the code calls. -/
def calledSkill? (c : StepCode) : Option String :=
  match c.refers with
  | some (.skill key) => some key
  | _ => none

end StepCode

/-- The mark that the fields of a stub denote. -/
def StubKind.ofFields (r : Entries Value) : StubKind :=
  let name := r.text "func_name"
  let text := Text.trim (r.text "stub_name")
  match text with
  | "else" => .orElse
  | "end condition" => .endCondition
  | "end loop" => .endLoop
  | "break" => .breakLoop
  | "start function" => .startFunction name (r.text "fargs")
  | "end function" => .endFunction name
  | "end skill" => .endSkill name
  | "tag" => .tag name
  | text => if Text.startsWith text "start skill" then .startSkill name else .label text

namespace RawStep

/-- The fields of a step, read by a shape. -/
def read (fields : List Field) (s : RawStep) : Except SkillFault (Entries Value) :=
  match Shape.readEntries ⟨s.kind, fields⟩ s.fields with
  | .ok r => .ok r
  | .error e => .error (.invalidStep s.key (.badArguments e))

/-- The step that sets the counter of a loop to zero. -/
def resetCounter (counter : String) : Op :=
  .action "Fill Data" [("type", .text "Fill Data"), ("fill_type", .text "direct"),
    ("from", .int 0), ("to", .text counter), ("result", .text "")]

/-- The name of the counter of a loop: the one that is given, or one made of the positions of the
document and the step. -/
def counterName (document : Nat) (given : String) (s : RawStep) : String :=
  let given := Text.trim given
  if given = "" then s!"lc_{document}_{s.number}" else given

/-- The code of a loop. A counted one sets its counter to zero first. -/
def loopCode (document : Nat) (s : RawStep) : Except SkillFault StepCode := do
  let r ← s.read [.textOrEmpty "lc_name", .textOrEmpty "until",
    .defaulted "count" .loose (.text "")]
  let guard := r.text "until"
  let count := r.text "count"
  let counter := s.counterName document (r.text "lc_name")
  let op := Op.loop guard count counter Program.sentinel
  if !Text.isBlankText guard then .ok (.just op)
  else if Text.isBlankText count then .error (.invalidStep s.key .noBound)
  else .ok ⟨some (resetCounter counter), op, none⟩

/-- The code of a step of the document at a position. -/
def code (document : Nat) (s : RawStep) : Except SkillFault StepCode :=
  match s.kind with
  | "Check Condition" => do
    let r ← s.read [.text "condition"]
    .ok (.just (.checkCondition (r.text "condition") Program.sentinel Program.sentinel))
  | "Repeat" => s.loopCode document
  | "Goto" => do
    let r ← s.read [.required "goto" .loose]
    .ok (.referring (.goto Program.sentinel none) (.label (r.text "goto")))
  | "Stub" => do
    let r ← s.read [.text "stub_name", .textOrEmpty "func_name", .textOrEmpty "fargs"]
    .ok (.just (.stub (.ofFields r)))
  | "Call Function" => do
    let r ← s.read [.text "fname", .textOrEmpty "fargs", .textOrEmpty "output"]
    let name := r.text "fname"
    .ok (.referring (.callFunction name Program.sentinel "" (r.text "fargs") (r.text "output"))
      (.function name))
  | "Return" => do
    let r ← s.read [.textOrEmpty "val_var_name"]
    .ok (.just (.giveBack (r.text "val_var_name")))
  | "Use Skill" => do
    let r ← s.read [.text "skill_name", .textOrEmpty "skill_path", .textOrEmpty "skill_args",
      .textOrEmpty "output"]
    let key := skillKey (r.text "skill_path") (r.text "skill_name")
    .ok (.referring (.useSkill key Program.sentinel (r.text "skill_args") (r.text "output"))
      (.skill key))
  | "Overload Skill" => do
    let r ← s.read [.text "skill_name", .textOrEmpty "args", .textOrEmpty "output"]
    let key := Text.trimMatches '/' (r.text "skill_name")
    .ok (.referring (.overloadSkill key Program.sentinel (r.text "args") (r.text "output"))
      (.skill key))
  | "Exception Handler" => do
    let r ← s.read HandlerArgs.shape.fields
    .ok (.just (.exceptionHandler (.ofEntries r) Program.sentinel))
  | "End Exception" => .ok (.just .endException)
  | kind => .ok (.just (.action kind s.fields))

end RawStep

end Deskhand
