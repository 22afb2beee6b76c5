import Deskhand.Program.Draft

/-!
# Linking

Matching the marks of a document with the constructs that they belong to. The instructions of the
document are visited once, in order, with the constructs that are open; the mark that closes a
construct turns every jump inside it into one with a target.
-/

namespace Deskhand

/-- A construct that is open, with the index that it was opened at. -/
inductive Construct where
  | condition (start : Nat) (orElse : Option Nat)
  | loop (start : Nat) (breaks : List Nat)
  | function (start : Nat)
  | skill
  deriving DecidableEq

/-- The index at which a construct was opened; a skill need not be closed, so its index does not
matter. -/
def Construct.opening? : Construct → Option Nat
  | condition i _ => some i
  | loop i _ => some i
  | function i => some i
  | skill => none

/-- The draft in which a document is being linked, the constructs that are open, the innermost
first, and the exception handler that is open. -/
structure LinkState where
  draft : Draft
  constructs : List Construct
  handler : Option Nat

namespace LinkState

/-- A mark that belongs to no open construct. -/
def unmatched {α : Type} (stub : String) (index : Nat) (s : LinkState) : Except SkillFault α :=
  .error (.unmatchedStub stub (s.draft.addressAt index))

/-- A construct that should have been closed. -/
def unclosed {α : Type} (start : Nat) (s : LinkState) : Except SkillFault α :=
  .error (.unclosedConstruct (s.draft.addressAt start))

/-- Open a construct. -/
def enter (c : Construct) (s : LinkState) : LinkState :=
  { s with constructs := c :: s.constructs }

/-- A condition that does not hold goes on behind `orElse`. -/
def setElse (target : Nat) : Op → Op
  | .checkCondition condition _ ifEnd => .checkCondition condition target ifEnd
  | op => op

/-- A condition ends at `target`. -/
def setEnd (target : Nat) : Op → Op
  | .checkCondition condition ifElse _ => .checkCondition condition ifElse target
  | op => op

/-- A loop is left to `target`. -/
def setStop (target : Nat) : Op → Op
  | .loop guard count counter _ => .loop guard count counter target
  | .exceptionHandler args _ => .exceptionHandler args target
  | op => op

/-- The counter that is counted up at the end of a loop: none if it has a guard. -/
def counted : Op → Option String
  | .loop guard _ counter _ => if Text.isBlankText guard then some counter else none
  | _ => none

/-- The second part of a condition begins. -/
def linkElse (index : Nat) (s : LinkState) : Except SkillFault LinkState :=
  match s.constructs with
  | .condition start none :: rest =>
    .ok { s with
      draft := s.draft.modifyOp start (setElse (index + 1))
      constructs := .condition start (some index) :: rest }
  | _ => s.unmatched "else" index

/-- A condition ends. -/
def linkEndCondition (index : Nat) (s : LinkState) : Except SkillFault LinkState :=
  match s.constructs with
  | .condition start orElse :: rest =>
    let draft := s.draft.modifyOp start (setEnd (index + 1))
    let draft := match orElse with
      | some e => draft.setOp e (.goto (index + 1) none)
      | none => draft.modifyOp start (setElse (index + 1))
    .ok { s with draft := draft.setOp index (.goto (index + 1) none), constructs := rest }
  | _ => s.unmatched "end condition" index

/-- Note a jump out of the innermost loop; only conditions may stand between. -/
def addBreak (index : Nat) : List Construct → Option (List Construct)
  | .loop start breaks :: rest => some (.loop start (breaks ++ [index]) :: rest)
  | c@(.condition ..) :: rest => (addBreak index rest).map (c :: ·)
  | _ => none

/-- A jump out of a loop. -/
def linkBreak (index : Nat) (s : LinkState) : Except SkillFault LinkState :=
  match addBreak index s.constructs with
  | some constructs => .ok { s with constructs }
  | none => s.unmatched "break" index

/-- A loop ends: control goes back to its beginning, and the jumps out of it go behind its end. -/
def linkEndLoop (index : Nat) (s : LinkState) : Except SkillFault LinkState :=
  match s.constructs with
  | .loop start breaks :: rest =>
    let increment := (s.draft.instructions[start]?).bind fun i => counted i.op
    let draft := s.draft.modifyOp start (setStop (index + 1))
    let draft := draft.setOp index (.goto start increment)
    let draft := breaks.foldl (fun d b => d.setOp b (.goto (index + 1) none)) draft
    .ok { s with draft, constructs := rest }
  | _ => s.unmatched "end loop" index

/-- The body of a function begins. The first function of a name counts. -/
def linkStartFunction (document index : Nat) (name param : String) (s : LinkState) : LinkState :=
  let draft := s.draft.modifySection document fun sec =>
    { sec with functions := sec.functions.putNew name (index + 1, param) }
  { s with draft, constructs := .function index :: s.constructs }

/-- The body of a function ends; who comes to its beginning without a call goes behind its end. -/
def linkEndFunction (index : Nat) (s : LinkState) : Except SkillFault LinkState :=
  match s.constructs with
  | .function start :: rest =>
    .ok { s with draft := s.draft.setOp start (.goto (index + 1) none), constructs := rest }
  | _ => s.unmatched "end function" index

/-- A skill begins: calls of its document enter here, and its own name may be called too. -/
def linkStartSkill (document index : Nat) (name : String) (s : LinkState) : LinkState :=
  let title := ((s.draft.sections[document]?).map (·.span.name)).getD ""
  let skills := s.draft.skills.put title (index + 1)
  let skills := if name = "" then skills else skills.putNew name (index + 1)
  { s with draft := { s.draft with skills }, constructs := .skill :: s.constructs }

/-- A skill ends, which may also have begun with its document. -/
def linkEndSkill (s : LinkState) : Except SkillFault LinkState :=
  match s.constructs with
  | .skill :: rest => .ok { s with constructs := rest }
  | c :: _ =>
    match c.opening? with
    | some start => s.unclosed start
    | none => .ok s
  | [] => .ok s

/-- The block of an exception handler ends. -/
def linkEndException (index : Nat) (s : LinkState) : Except SkillFault LinkState :=
  match s.handler with
  | some start =>
    .ok { s with draft := s.draft.modifyOp start (setStop (index + 1)), handler := none }
  | none => s.unmatched "End Exception" index

/-- Visit the instruction at an index of the document at a position. -/
def visit (document index : Nat) (op : Op) (s : LinkState) : Except SkillFault LinkState :=
  match op with
  | .checkCondition .. => .ok (s.enter (.condition index none))
  | .loop .. => .ok (s.enter (.loop index []))
  | .stub .orElse => s.linkElse index
  | .stub .endCondition => s.linkEndCondition index
  | .stub .breakLoop => s.linkBreak index
  | .stub .endLoop => s.linkEndLoop index
  | .stub (.startFunction name param) => .ok (s.linkStartFunction document index name param)
  | .stub (.endFunction _) => s.linkEndFunction index
  | .stub (.startSkill name) => .ok (s.linkStartSkill document index name)
  | .stub (.endSkill _) => s.linkEndSkill
  | .exceptionHandler .. => .ok { s with handler := some index }
  | .endException => s.linkEndException index
  | .stub (.tag name) =>
    .ok { s with draft := s.draft.modifySection document fun sec =>
      { sec with tags := sec.tags.put name index } }
  | _ => .ok s

/-- Visit `n` instructions from an index on. -/
def visitFrom (document : Nat) : Nat → Nat → LinkState → Except SkillFault LinkState
  | _, 0, s => .ok s
  | index, n + 1, s =>
    match s.draft.instructions[index]? with
    | none => .ok s
    | some i => do visitFrom document (index + 1) n (← s.visit document index i.op)

/-- Nothing but skills may be open at the end of a document. -/
def close (s : LinkState) : Except SkillFault Draft :=
  match s.handler with
  | some start => s.unclosed start
  | none =>
    match s.constructs.reverse.findSome? Construct.opening? with
    | some start => s.unclosed start
    | none => .ok s.draft

end LinkState

namespace Draft

/-- Link the document at a position. -/
def linkDocument (document : Nat) (d : Draft) : Except SkillFault Draft :=
  match d.sections[document]? with
  | none => .ok d
  | some sec => do
    let s ← LinkState.visitFrom document sec.span.start (sec.span.stop - sec.span.start)
      ⟨d, [], none⟩
    s.close

/-- Link the documents one after another. -/
def link (d : Draft) : Except SkillFault Draft :=
  (List.range d.sections.size).foldlM (fun d document => d.linkDocument document) d

end Draft

end Deskhand
