import Deskhand.Value.Basic

/-!
# YAML nodes

What a YAML document holds before anything is known about what it is for. A plain scalar is only a
text; whether it is a number or null depends on where it stands, so a node becomes a value by the
form that is expected of it.
-/

namespace Deskhand.Yaml

/-- A node of a document. -/
inductive Node where
  /-- A scalar, and whether it stands without quotes. -/
  | scalar (text : String) (plain : Bool)
  | list (items : List Node)
  | mapping (entries : List (String × Node))

/-- The node where nothing is written. -/
def Node.absent : Node := .scalar "" true

/-- What a node is expected to be. -/
inductive Form where
  /-- A text, which any scalar is. -/
  | text
  /-- An integer or null, written without quotes. -/
  | integer
  | listOf (item : Form)
  /-- Fields by name, or by position; others are ignored. -/
  | record (fields : List (String × Form))

/-! ## Plain scalars -/

/-- How null is written. -/
def nullTexts : List String := ["", "~", "null", "Null", "NULL"]

/-- An integer: a sign, and digits that may be hexadecimal, octal or binary. Decimal digits do not
begin with a superfluous zero. -/
def readInteger? (text : String) : Option Int :=
  let (negative, digits) := splitSign text.toList
  let size := match digits with
    | '0' :: 'x' :: hex => digitsIn? 16 hex
    | '0' :: 'o' :: octal => digitsIn? 8 octal
    | '0' :: 'b' :: binary => digitsIn? 2 binary
    | '0' :: _ :: _ => none
    | decimal => digitsIn? 10 decimal
  size.map fun n => if negative then -(n : Int) else n

/-- The integer or null that a plain scalar denotes; any other one is a text. -/
def plainValue (text : String) : Value :=
  if text ∈ nullTexts then .null
  else
    match readInteger? text with
    | some n => .int n
    | none => .text text

/-! ## Values -/

namespace Node

mutual

/-- The value of a node of which a form is expected. A node of another form keeps its kind. Nothing
at all stands for an empty list and for a record without fields. -/
def toValue : Form → Node → Value
  | .text, .scalar s _ => .text s
  | .integer, .scalar s plain => if plain then plainValue s else .text s
  | .listOf _, .scalar s plain => if plain ∧ s = "" then .list [] else .text s
  | .record _, .scalar s plain => if plain ∧ s = "" then .object [] else .text s
  | .listOf item, .list items => .list (eachToValue item items)
  | .record fields, .list items => .list (inOrderToValue fields items)
  | _, .list items => .list (eachToValue .text items)
  | .record fields, .mapping entries => .object (namedToValue fields entries)
  | _, .mapping entries => .object (namedToValue [] entries)

/-- Items of one form. -/
def eachToValue (item : Form) : List Node → List Value
  | [] => []
  | n :: rest => toValue item n :: eachToValue item rest

/-- The fields of a record by position. -/
def inOrderToValue : List (String × Form) → List Node → List Value
  | _, [] => []
  | [], n :: rest => toValue .text n :: inOrderToValue [] rest
  | (_, form) :: fields, n :: rest => toValue form n :: inOrderToValue fields rest

/-- The fields of a record by name. -/
def namedToValue (fields : List (String × Form)) : List (String × Node) → List (String × Value)
  | [] => []
  | (name, n) :: rest =>
    (name, toValue ((Entries.get? name fields).getD .text) n) :: namedToValue fields rest

end

end Node

end Deskhand.Yaml
