import Deskhand.Json.Printer

/-!
# Record shapes

Reading a value as a record with named fields. A shape lists the fields in order; each says how its
value is read and what stands for it when it is absent. From an object the fields are read in the
order of the entries, so the first entry that does not fit is the one reported, and only then are
the absent fields made up, in the order of the shape; entries of other names are ignored. A list is
read by position. A record that was read has exactly the fields of its shape, in that order.
-/

namespace Deskhand

/-- Why a value is not of a shape. -/
inductive ShapeFault where
  /-- A field without a default is absent. -/
  | missing (field : String)
  /-- A value of another kind stands in its place. -/
  | kind (found expected : String)
  /-- An integer is out of range. -/
  | range (found expected : String)
  /-- A list is too short or too long. -/
  | length (n : Nat) (expected : String)
  deriving DecidableEq

def ShapeFault.message : ShapeFault → String
  | missing field => s!"missing field `{field}`"
  | kind found expected => s!"invalid type: {found}, expected {expected}"
  | range found expected => s!"invalid value: {found}, expected {expected}"
  | length n expected => s!"invalid length {n}, expected {expected}"

/-- What a value is called when it does not fit. -/
def Value.description : Value → String
  | .null => "null"
  | .bool b => s!"boolean `{b}`"
  | .number (.int n) => s!"integer `{n}`"
  | .number (.real x) => s!"floating point `{NumberLayout.json.finite x}`"
  | .text s => s!"string {Text.shown s}"
  | .list _ => "sequence"
  | .object _ => "map"

/-- Reads the value of a field, in the form in which the record keeps it. -/
abbrev FieldReader := Value → Except ShapeFault Value

namespace FieldReader

/-- A value of another kind than the expected one. -/
def mismatch (v : Value) (expected : String) : Except ShapeFault Value :=
  .error (.kind v.description expected)

/-- Any value. -/
def any : FieldReader := .ok

/-- A text. -/
def text : FieldReader
  | .text s => .ok (.text s)
  | v => mismatch v "a string"

/-- A path. -/
def path : FieldReader
  | .text s => .ok (.text s)
  | v => mismatch v "path string"

/-- A text, or the text of whatever else stands there. -/
def loose : FieldReader
  | .null => .ok (.text "")
  | .text s => .ok (.text s)
  | v => .ok (.text v.compact)

/-- An integer from `lo` up to `hi`. -/
def integer (lo hi : Int) (expected : String) : FieldReader
  | .number (.int n) =>
    if lo ≤ n ∧ n ≤ hi then .ok (.int n)
    else .error (.range (Value.int n).description expected)
  | v => mismatch v expected

/-- An integer of 32 bits without sign. -/
def nat32 : FieldReader := integer 0 (Word.count32 - 1) "u32"

/-- An integer of 64 bits without sign. -/
def nat64 : FieldReader := integer 0 (Word.count64 - 1) "u64"

/-- A size: an integer of 64 bits without sign. -/
def size : FieldReader := integer 0 (Word.count64 - 1) "usize"

/-- An integer of 64 bits with sign. -/
def int64 : FieldReader := integer Word.minInt Word.maxInt "i64"

/-- A list of any length. -/
def listOf (item : FieldReader) : FieldReader
  | .list items => do .ok (.list (← items.mapM item))
  | v => mismatch v "a sequence"

/-- A list of exactly `n` items. -/
def listOfLength (n : Nat) (item : FieldReader) : FieldReader
  | .list items => do
    let read ← (items.take n).mapM item
    if read.length < n then .error (.length read.length s!"an array of length {n}")
    else if n < items.length then .error (.length items.length "fewer elements in array")
    else .ok (.list read)
  | v => mismatch v s!"an array of length {n}"

/-- Null, or what the reader accepts. -/
def orNull (inner : FieldReader) : FieldReader
  | .null => .ok .null
  | v => inner v

end FieldReader

/-- What an absent field means. -/
inductive Absence where
  /-- The field must be there. -/
  | fails
  /-- An object may leave the field out, which means null; a list may not. -/
  | isNull
  /-- The field has a default. -/
  | means (default : Value)

/-- A field of a record. -/
structure Field where
  name : String
  read : FieldReader
  absence : Absence

namespace Field

/-- A field that must be there. -/
def required (name : String) (read : FieldReader) : Field := ⟨name, read, .fails⟩

/-- A field that is null when it is absent from an object. -/
def optional (name : String) (read : FieldReader) : Field := ⟨name, read.orNull, .isNull⟩

/-- A field with a default. -/
def defaulted (name : String) (read : FieldReader) (default : Value) : Field :=
  ⟨name, read, .means default⟩

/-- A text that must be there. -/
def text (name : String) : Field := required name .text

/-- A text that is empty when it is absent. -/
def textOrEmpty (name : String) : Field := defaulted name .text (.text "")

/-- A text with a default. -/
def textOr (name default : String) : Field := defaulted name .text (.text default)

/-- Any value, but there must be one. -/
def any (name : String) : Field := required name .any

/-- Any value, null when it is absent. -/
def anyOrNull (name : String) : Field := defaulted name .any .null

/-- What stands for the field when an object does not have it. -/
def whenAbsent (f : Field) : Except ShapeFault Value :=
  match f.absence with
  | .fails => .error (.missing f.name)
  | .isNull => .ok .null
  | .means default => .ok default

end Field

/-- The form of a record. -/
structure Shape where
  name : String
  fields : List Field

namespace Shape

/-- What the shape is called when something else stands in its place. -/
def title (shape : Shape) : String := s!"struct {shape.name}"

/-- The title with the number of fields. -/
def titleWithSize (shape : Shape) : String :=
  let n := shape.fields.length
  let noun := if n = 1 then "element" else "elements"
  s!"{shape.title} with {n} {noun}"

/-- Read the entries that have a field of their name, in the order of the entries. -/
def readKnown (fields : List Field) : Entries Value → Except ShapeFault (Entries Value)
  | [] => .ok []
  | (name, v) :: rest =>
    match fields.find? (·.name = name) with
    | none => readKnown fields rest
    | some f => do
      let read ← f.read v
      .ok ((name, read) :: (← readKnown fields rest))

/-- Every field in order, from those that were read or by what their absence means. -/
def fill (known : Entries Value) : List Field → Except ShapeFault (Entries Value)
  | [] => .ok []
  | f :: rest => do
    let v ← match known.get? f.name with
      | some v => .ok v
      | none => f.whenAbsent
    .ok ((f.name, v) :: (← fill known rest))

/-- Read a record from the entries of an object. -/
def readEntries (shape : Shape) (entries : Entries Value) : Except ShapeFault (Entries Value) := do
  fill (← readKnown shape.fields entries) shape.fields

/-- Read the fields by position, from the one at `position`. -/
def readItems (shape : Shape) (position : Nat) :
    List Field → List Value → Except ShapeFault (Entries Value)
  | [], _ => .ok []
  | f :: fields, v :: items => do
    let read ← f.read v
    .ok ((f.name, read) :: (← readItems shape (position + 1) fields items))
  | f :: fields, [] =>
    match f.absence with
    | .means default => do .ok ((f.name, default) :: (← readItems shape (position + 1) fields []))
    | _ => .error (.length position shape.titleWithSize)

/-- Read a record. -/
def read (shape : Shape) : Value → Except ShapeFault (Entries Value)
  | .object entries => shape.readEntries entries
  | .list items => do
    let record ← shape.readItems 0 shape.fields items
    if shape.fields.length < items.length then
      .error (.length items.length "fewer elements in array")
    else .ok record
  | v => .error (.kind v.description shape.title)

/-- A record in a field. -/
def reader (shape : Shape) : FieldReader := fun v => (shape.read v).map .object

end Shape

/-! ## Fields of a record that was read -/

namespace Entries

/-- The value of a field; null if there is none. -/
def value (name : String) (record : Entries Value) : Value := (record.get? name).getD .null

/-- The text of a field; empty if there is none. -/
def text (name : String) (record : Entries Value) : String := (record.value name).text?.getD ""

/-- The text of a field that may be null. -/
def text? (name : String) (record : Entries Value) : Option String := (record.value name).text?

/-- The integer in a field that may be null. -/
def int? (name : String) (record : Entries Value) : Option Int :=
  match record.value name with
  | .number (.int n) => some n
  | _ => none

/-- The integer in a field; zero if there is none. -/
def int (name : String) (record : Entries Value) : Int := (record.int? name).getD 0

/-- The natural number in a field that may be null. -/
def nat? (name : String) (record : Entries Value) : Option Nat := (record.int? name).map Int.toNat

/-- The natural number in a field; zero if there is none. -/
def nat (name : String) (record : Entries Value) : Nat := (record.nat? name).getD 0

/-- The items of the list in a field; none if there is no list. -/
def items (name : String) (record : Entries Value) : List Value :=
  match record.value name with
  | .list items => items
  | _ => []

/-- The texts of the list in a field. -/
def texts (name : String) (record : Entries Value) : List String :=
  (record.items name).filterMap Value.text?

end Entries

end Deskhand
