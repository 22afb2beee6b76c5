import Deskhand.Json.Reader
import Deskhand.Skill.Fault
import Deskhand.Text.Lines

/-!
# Skill documents

A document is an object with a header and numbered steps. Steps run in the order of their numbers,
whatever the order in which they stand in the document. Entries of other names are passed over.
-/

namespace Deskhand

/-- What a document says about itself. -/
structure SkillHeader where
  name : String
  os : String
  version : String
  author : String
  skid : String
  description : String
  deriving DecidableEq

namespace SkillHeader

def shape : Shape where
  name := "SkillHeader"
  fields := [.textOrEmpty "name", .textOrEmpty "os", .defaulted "version" .loose (.text ""),
    .textOrEmpty "author", .defaulted "skid" .loose (.text ""), .textOrEmpty "description"]

def ofEntries (r : Entries Value) : SkillHeader where
  name := r.text "name"
  os := r.text "os"
  version := r.text "version"
  author := r.text "author"
  skid := r.text "skid"
  description := r.text "description"

/-- The header of a document that has none. -/
def empty : SkillHeader := ⟨"", "", "", "", "", ""⟩

end SkillHeader

/-- A step of a document as it is written there. -/
structure RawStep where
  key : String
  number : Nat
  kind : String
  fields : Entries Value

/-- A document; its steps are in the order of their numbers. -/
structure SkillDocument where
  name : String
  header : SkillHeader
  steps : List RawStep

namespace SkillDocument

/-- A text without the lines that are comments. -/
def stripComments (text : String) : String :=
  "\n".intercalate ((Text.lines text).filter (!Text.isCommentLine ·))

/-- The number in the key of a step: the word `step`, perhaps blanks, and digits. -/
def stepNumber? (key : String) : Option Nat :=
  (Text.afterStart? "step" key).bind fun rest => readNat64? (Text.trim rest)

/-- The step that an entry of a document denotes. -/
def readStep (name key : String) (record : Value) : Except SkillFault RawStep := do
  let number ← match stepNumber? key with
    | some n => .ok n
    | none => .error (.malformed name (.badStepKey key))
  let fields ← match record with
    | .object fields => .ok fields
    | _ => .error (.invalidStep key .notMapping)
  match (Entries.get? "type" fields).bind Value.text? with
  | some kind => .ok ⟨key, number, kind, fields⟩
  | none => .error (.invalidStep key .missingType)

/-- The header and the steps in the entries of a document, in the order of the entries. The first
entry that cannot be read is reported. -/
def readEntries (name : String) :
    SkillHeader → List RawStep → Entries Value → Except SkillFault (SkillHeader × List RawStep)
  | header, steps, [] => .ok (header, steps)
  | header, steps, (key, record) :: rest =>
    if key = "header" then
      match SkillHeader.shape.read record with
      | .ok r => readEntries name (.ofEntries r) steps rest
      | .error e => .error (.malformed name (.badHeader e))
    else if key = "dummy" ∨ !Text.startsWith key "step" then readEntries name header steps rest
    else do
      let step ← readStep name key record
      readEntries name header (steps ++ [step]) rest

/-- The first number that two neighbouring steps share. -/
def duplicate? : List RawStep → Option Nat
  | a :: b :: rest => if a.number = b.number then some a.number else duplicate? (b :: rest)
  | _ => none

/-- The document that a value denotes. -/
def ofValue (name : String) : Value → Except SkillFault SkillDocument
  | .object entries => do
    let (header, steps) ← readEntries name .empty [] entries
    let sorted := steps.mergeSort fun a b => a.number ≤ b.number
    match duplicate? sorted with
    | some n => .error (.malformed name (.duplicateStep n))
    | none => .ok ⟨name, header, sorted⟩
  | _ => .error (.malformed name .notMapping)

/-- The document that a text denotes. -/
def parse (name text : String) : Except SkillFault SkillDocument :=
  match Json.read (stripComments text) with
  | some v => ofValue name v
  | none => .error (.malformed name .notJson)

/-- The document in a file, named for it. -/
def load (path : String) (files : Files) : Except SkillFault SkillDocument :=
  match files.read path with
  | .ok text => parse ((Path.stem? path).getD "main") text
  | .error e => .error (.file e)

end SkillDocument

/-- The key by which a skill is looked up: its path and its name, without slashes around them. -/
def skillKey (path name : String) : String :=
  let path := Text.trimMatches '/' path
  let name := Text.trimMatches '/' name
  if path = "" then name else path ++ "/" ++ name

end Deskhand
