import Deskhand.Json.Reader
import Deskhand.Mission.Workspace

/-!
# Data steps

Creating variables, filling them, and reading numbers out of texts.
-/

namespace Deskhand

namespace Value

/-- A text in the brackets or braces of JSON is read as such, if it can be; any other value is
itself. -/
def parsedIfStructured : Value → Value
  | .text s =>
    let t := Text.trim s
    let enclosed (first last : String) : Bool := Text.startsWith t first && Text.endsWith t last
    if enclosed "\x7b" "\x7d" || enclosed "[" "]" then (Json.read t).getD (.text s) else .text s
  | v => v

/-- The empty value of the same kind; null where there is none. -/
def emptyLike : Value → Value
  | .list _ => .list []
  | .object _ => .object []
  | .text _ => .text ""
  | _ => .null

end Value

/-! ## Create Data -/

/-- A variable to be made. -/
structure CreateData where
  dataType : String
  name : String
  /-- `NA` if the value stands for itself, else the key under which an object holds it. -/
  key : String
  value : Value

def CreateData.read (args : Entries Value) : StepM CreateData := do
  let r ← StepM.arguments [.textOrEmpty "data_type", .text "data_name", .textOr "key_name" "NA",
    .anyOrNull "key_value"] args
  return ⟨r.text "data_type", Text.trim (r.text "data_name"), r.text "key_name",
    r.value "key_value"⟩

/-- The value that the variable gets. -/
def CreateData.initial (c : CreateData) : StepM Value :=
  if c.key = "NA" then
    match c.dataType, c.value with
    | "expr", .text source => StepM.evaluate source
    | _, v => return v
  else return .object [(c.key, c.value.parsedIfStructured)]

/-- Declare a variable. -/
def createData (args : Entries Value) : StepM Unit := do
  let c ← CreateData.read args
  if c.name = "" then throw .noDataName
  let v ← c.initial
  StepM.modifySymbols (·.declare c.name v)

/-! ## Fill Data -/

/-- What to fill a target with, and how. -/
structure FillData where
  how : String
  source : Value
  target : String
  result : String

def FillData.read (args : Entries Value) : StepM FillData := do
  let r ← StepM.arguments [.textOr "fill_type" "direct", .anyOrNull "from", .text "to",
    .textOrEmpty "result"] args
  return ⟨r.text "fill_type", r.value "from", Text.trim (r.text "to"), r.text "result"⟩

/-- The position in a list of `size` items that an index from either end names. -/
def itemPosition? (index : Int) (size : Nat) : Option Nat :=
  let position := if index < 0 then size + index else index
  if 0 ≤ position ∧ position < size then some position.toNat else none

namespace FillData

/-- The target becomes the value of an expression, or a literal. -/
def assign (f : FillData) : StepM Unit := do
  let v ← StepM.valueOf f.source
  StepM.write f.target v

/-- The target's list gets a new item at its end or at its beginning. -/
def extend (f : FillData) (atEnd : Bool) : StepM Unit := do
  let item ← StepM.valueOf f.source
  match ← StepM.evaluate f.target with
  | .list items => StepM.write f.target (.list (if atEnd then items ++ [item] else item :: items))
  | .null => StepM.write f.target (.list [item])
  | v => throw (.cannotExtend f.how v)

/-- The target's list or object takes up the items or entries of another one. -/
def merge (f : FillData) : StepM Unit := do
  let extra ← StepM.valueOf f.source
  match ← StepM.evaluate f.target, extra with
  | .list items, .list more => StepM.write f.target (.list (items ++ more))
  | .object entries, .object more => StepM.write f.target (.object (Entries.putAll entries more))
  | .null, v => StepM.write f.target v
  | current, v => throw (.cannotMerge v current)

/-- The target becomes empty. -/
def clear (f : FillData) : StepM Unit := do
  let current ← StepM.evaluate f.target
  StepM.write f.target current.emptyLike

/-- An item of the target's list moves to the result; the last one if no index is given. -/
def pop (f : FillData) : StepM Unit := do
  match ← StepM.evaluate f.target with
  | .list items =>
    if items.isEmpty then throw (.nothingToPop f.target)
    let index := ((← StepM.numberOf f.source).map Binary64.toInt64).getD (-1)
    match itemPosition? index items.length with
    | none => throw (.popOutOfRange index f.target)
    | some position =>
      let item := (items[position]?).getD .null
      StepM.write f.target (.list (items.eraseIdx position))
      StepM.store f.result item
  | _ => throw (.notList f.target)

/-- The value of a key of the target's object moves to the result; null if there is no such key. -/
def popKey (f : FillData) : StepM Unit := do
  let key := f.source.display
  match ← StepM.evaluate f.target with
  | .object entries =>
    let v := (Entries.get? key entries).getD .null
    StepM.write f.target (.object (Entries.swapRemove key entries))
    StepM.store f.result v
  | _ => throw (.notMapping f.target)

end FillData

/-- Change the value of a target. -/
def fillData (args : Entries Value) : StepM Unit := do
  let f ← FillData.read args
  if f.target = "" then throw .noTarget
  match f.how with
  | "append" => f.extend true
  | "prepend" => f.extend false
  | "merge" => f.merge
  | "clear" => f.clear
  | "pop" => f.pop
  | "pop_key" => f.popKey
  | _ => f.assign

/-! ## Text To Number -/

/-- The number in the first word of a text. Signs of currency, number and percent and separators of
thousands are passed over; a percent sign divides by a hundred. -/
def numberIn? (text : String) : Option Value :=
  match (Text.words text).head? with
  | none => none
  | some word =>
    let digits := String.ofList (word.toList.filter fun c => c ∉ ['$', '#', '%', ','])
    if word.toList.contains '%' then (readReal? digits).map fun x => .real (x / .ofInt 100)
    else
      match readInt64? digits with
      | some n => some (.int n)
      | none => (readReal? digits).map .real

/-- Read a number out of a text. -/
def textToNumber (args : Entries Value) : StepM Unit := do
  let r ← StepM.arguments [.text "intext", .text "numvar"] args
  let text := (← StepM.evaluate (r.text "intext")).display
  match numberIn? text with
  | some v => StepM.store (r.text "numvar") v
  | none => throw (.noNumberIn text)

end Deskhand
