import Deskhand.Program.Link

/-!
# Resolving

From a main document and a library to a program: the documents that are called are taken up, each
of them is linked, and then every reference is looked up. A name means what its own document defines
by it, and otherwise what the first document that defines it does.
-/

namespace Deskhand

namespace Draft

/-- Look a name up in the document at a position, and then in all documents in order. -/
def lookUp {α : Type} (document : Nat) (find : Section → Option α) (d : Draft) : Option α :=
  ((d.sections[document]?).bind find).or (d.sections.toList.findSome? find)

/-- What a label of a jump names: behind the last exclamation mark, the number of a step or a
tag. -/
def labelName (text : String) : String := Text.trim (((Text.split "!" text).getLast?).getD text)

/-- The number of a step that a label names. -/
def labelNumber? (name : String) : Option Nat :=
  (SkillDocument.stepNumber? name).or (readNat64? name)

/-- Where a label leads to. A number means a step of the same document. -/
def labelTarget? (document : Nat) (text : String) (d : Draft) : Option Nat :=
  let name := labelName text
  match labelNumber? name with
  | some n => (d.sections[document]?).bind fun sec => (sec.steps.find? (·.1 = n)).map (·.2)
  | none => d.lookUp document fun sec => sec.tags.get? name

/-- Enter a function. -/
def setFunction (target : Nat) (param : String) : Op → Op
  | .callFunction name _ _ arg output => .callFunction name target param arg output
  | op => op

/-- Enter a skill. -/
def setSkill (target : Nat) : Op → Op
  | .useSkill name _ arg output => .useSkill name target arg output
  | .overloadSkill name _ arg output => .overloadSkill name target arg output
  | op => op

/-- Look a reference up. -/
def settle (d : Draft) (r : OpenReference) : Except SkillFault Draft :=
  match r.refers with
  | .label text =>
    match d.labelTarget? r.document text with
    | some target => .ok (d.setOp r.index (.goto target none))
    | none => .error (.unknownLabel text (d.addressAt r.index))
  | .function name =>
    match d.lookUp r.document fun sec => sec.functions.get? name with
    | some (target, param) => .ok (d.modifyOp r.index (setFunction target param))
    | none => .error (.missingFunction name)
  | .skill key =>
    match d.skills.get? key with
    | some target => .ok (d.modifyOp r.index (setSkill target))
    | none => .error (.missingSkill key)

/-- The first instruction of every function; of two functions of one name the first one counts. -/
def functions (d : Draft) : Entries Nat :=
  d.sections.toList.foldl (fun known sec =>
    sec.functions.foldl (fun known f => known.putNew f.1 f.2.1) known) []

/-- The finished program of a main document. -/
def finish (main : SkillDocument) (d : Draft) : Program where
  name := if main.header.name = "" then main.name else main.header.name
  skid := main.header.skid
  instructions := d.instructions
  functions := d.functions.sorted
  skills := d.skills.sorted
  handlers := d.handlers.sorted
  documents := d.sections.toList.map (·.span)

end Draft

/-- The program of a main document with the library that it may call. -/
def resolve (main : SkillDocument) (library : SkillLibrary) : Except SkillFault Program := do
  let d ← Draft.ofDocuments main library
  let d ← d.link
  let d ← d.references.foldlM Draft.settle d
  .ok (d.finish main)

end Deskhand
