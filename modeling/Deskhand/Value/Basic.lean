import Deskhand.Entries
import Deskhand.Number.Numeral
import Deskhand.Number.Notation

/-!
# Values

The data that skills compute with: what a JSON text can denote. An integer and a real number are
different values even if they are equal as numbers, and the entries of an object keep their order.
-/

namespace Deskhand

/-- A number is an integer, or a finite real. -/
inductive Number where
  | int (n : Int)
  | real (x : Finite64)
  deriving DecidableEq

/-- A value of the expression language and of documents. -/
inductive Value where
  | null
  | bool (b : Bool)
  | number (n : Number)
  | text (s : String)
  | list (items : List Value)
  | object (entries : List (String × Value))

instance : Inhabited Value := ⟨.null⟩

namespace Number

/-- The number as a real; an integer is rounded. -/
def toBinary64 : Number → Binary64
  | .int n => .ofInt n
  | .real x => .finite x

/-- The text of a number in values and messages. -/
def render : Number → String
  | .int n => toString n
  | .real x => NumberLayout.json.finite x

/-- Same kind and same number; the two zeros of the reals are the same. -/
def same : Number → Number → Bool
  | .int a, .int b => a == b
  | .real x, .real y => x.value == y.value
  | _, _ => false

end Number

namespace Value

/-- An integer. -/
def int (n : Int) : Value := .number (.int n)

/-- A real number; one that is not finite has no value of its own and becomes null. -/
def real (x : Binary64) : Value :=
  match x.toFinite? with
  | some f => .number (.real f)
  | none => .null

/-- The integers that calculate as integers: those of 64 bits with sign. -/
def IsInt64 (n : Int) : Prop := Word.minInt ≤ n ∧ n ≤ Word.maxInt

instance (n : Int) : Decidable (IsInt64 n) := inferInstanceAs (Decidable (_ ∧ _))

/-- What a value is called in messages. -/
def kindName : Value → String
  | .null => "NoneType"
  | .bool _ => "bool"
  | .number (.int _) => "int"
  | .number (.real _) => "float"
  | .text _ => "str"
  | .list _ => "list"
  | .object _ => "dict"

/-- Null, false, zero and whatever is empty count as false. -/
def isTruthy : Value → Bool
  | .null => false
  | .bool b => b
  | .number (.int n) => n != 0
  | .number (.real x) => !x.isZero
  | .text s => s != ""
  | .list items => !items.isEmpty
  | .object entries => !entries.isEmpty

/-- The text, if the value is one. -/
def text? : Value → Option String
  | .text s => some s
  | _ => none

/-- The number as a real, if the value is a number. -/
def real? : Value → Option Binary64
  | .number n => some n.toBinary64
  | _ => none

/-- The entries, if the value is an object. -/
def object? : Value → Option (Entries Value)
  | .object entries => some entries
  | _ => none

/-- The value of an entry of an object. -/
def field? (name : String) : Value → Option Value
  | .object entries => Entries.get? name entries
  | _ => none

end Value

end Deskhand
