import Deskhand.Expr.Arithmetic
import Deskhand.Expr.Container
import Deskhand.Text.Blank

/-!
# Functions

The functions that expressions can call by name.
-/

namespace Deskhand.Expr

open Value (Quantity quantity?)

/-- The only argument of a function. -/
def oneArgument (function : String) (args : List Value) : Except ExprError Value :=
  match args with
  | [v] => .ok v
  | _ => .error (.type (.arity function 1 1 args.length))

/-- The number of items, entries or characters. -/
def lengthOf : Value → Except ExprError Value
  | .text s => .ok (.int s.length)
  | .list items => .ok (.int items.length)
  | .object es => .ok (.int es.length)
  | other => .error (.type (.noLength other.kindName))

/-- A value as an integer; a real, also one that a text spells, is cut toward zero. -/
def toInteger (v : Value) : Except ExprError Value :=
  match v with
  | .text s =>
    let trimmed := Text.trim s
    match readInt64? trimmed, readReal? trimmed with
    | some n, _ => .ok (.int n)
    | none, some x => .ok (.int x.toInt64)
    | none, none => .error (.type (.intLiteral s))
  | .null => .error (.type .intOfNothing)
  | other =>
    match quantity? other with
    | some (.int n) => .ok (.int n)
    | some (.real x) => .ok (.int x.toInt64)
    | none => .error (.type (.intArgument other.kindName))

/-- A value as a real. -/
def toReal (v : Value) : Except ExprError Value :=
  match v with
  | .text s =>
    match readReal? (Text.trim s) with
    | some x => .ok (.real x)
    | none => .error (.type (.realLiteral s))
  | other =>
    match quantity? other with
    | some n => .ok (.real n.toBinary64)
    | none => .error (.type (.realArgument other.kindName))

/-- A number without its sign. -/
def absoluteValue (v : Value) : Except ExprError Value :=
  match quantity? v with
  | some (.int n) => .ok (exactOr n.natAbs (Binary64.ofInt n).abs).toValue
  | some (.real x) => .ok (.real x.abs)
  | none => .error (.type .absArgument)

/-- A number with the other sign. -/
def negate (v : Value) : Except ExprError Value :=
  match quantity? v with
  | some (.int n) => .ok (exactOr (-n) (-(Binary64.ofInt n))).toValue
  | some (.real x) => .ok (.real (-x))
  | none => .error (.type (.negation v.kindName))

/-- The exponent of a rounding, of which only the low 32 bits count. -/
def roundingDigits (n : Int) : Int := n.bmod Word.count32

/-- A number rounded to an integer, or to so many decimal places by scaling it. -/
def roundTo (args : List Value) : Except ExprError Value :=
  match args with
  | x :: rest =>
    match quantity? x, rest with
    | none, _ => .error (.type .roundArgument)
    | some n, [] => .ok (.int n.toBinary64.round.toInt64)
    | some n, digits :: _ => do
      let factor := (Binary64.ofInt 10).pow (roundingDigits (← position digits))
      .ok (.real ((n.toBinary64 * factor).round / factor))
  | [] => .error (.type .roundArgument)

/-- The first item that no later one exceeds in the wanted direction, starting from `best`. -/
def extremeFrom (want : Ordering) (best : Value) : List Value → Except ExprError Value
  | [] => .ok best
  | v :: rest => do
    extremeFrom want (if (← orderOf v best) = want then v else best) rest

/-- The least or greatest of the arguments, or of the items of a single list. -/
def extreme (function : String) (want : Ordering) (args : List Value) :
    Except ExprError Value :=
  let candidates := match args with
    | [.list items] => items
    | args => args
  match candidates with
  | v :: rest => extremeFrom want v rest
  | [] => .error (.type (.emptySequence function))

/-- Insert an item into the items sorted before it, which stand in reverse: it moves past those that
are greater. -/
def insertSorted (v : Value) : List Value → Except ExprError (List Value)
  | [] => .ok [v]
  | w :: rest => do
    if (← orderOf v w) = .lt then .ok (w :: (← insertSorted v rest)) else .ok (v :: w :: rest)

/-- Items in ascending order; equal ones keep their order. -/
def sortItems (items : List Value) : Except ExprError (List Value) := do
  let reversed ← items.foldlM (fun sorted v => insertSorted v sorted) []
  .ok reversed.reverse

/-- The items of a list; other values have none. -/
def itemsOf (v : Value) : Except ExprError (List Value) :=
  match v with
  | .list items => .ok items
  | other => .error (.type (.notIterable other.kindName))

/-- A list, the keys of an object or the characters of a text, as a list. -/
def toList (v : Value) : Except ExprError (List Value) :=
  match v with
  | .list items => .ok items
  | .object es => .ok ((Entries.names es).map .text)
  | .text s => .ok (s.toList.map fun c => .text c.toString)
  | other => .error (.type (.notIterable other.kindName))

/-- The integers from `start` up to `stop`, if they are not too many. -/
def integers (start stop : Int) : Except ExprError Value :=
  if (repetitionLimit : Int) < stop - start then .error (.type (.rangeTooLarge start stop))
  else .ok (.list ((List.range (stop - start).toNat).map fun n : Nat => .int (start + n)))

/-- A function called by name. -/
def callFunction (function : String) (args : List Value) : Except ExprError Value :=
  let one := oneArgument function args
  let arity (least most : Nat) : Except ExprError Value :=
    .error (.type (.arity function least most args.length))
  match function with
  | "len" => do lengthOf (← one)
  | "int" => do toInteger (← one)
  | "float" => do toReal (← one)
  | "str" => do .ok (.text (← one).display)
  | "bool" => do .ok (.bool (← one).isTruthy)
  | "abs" => do absoluteValue (← one)
  | "round" => if args.length = 1 ∨ args.length = 2 then roundTo args else arity 1 2
  | "min" => extreme function .lt args
  | "max" => extreme function .gt args
  | "sum" => do (← itemsOf (← one)).foldlM (fun total v => operate total .add v) (.int 0)
  | "sorted" => do .ok (.list (← sortItems (← itemsOf (← one))))
  | "list" =>
    match args with
    | [] => .ok (.list [])
    | [v] => do .ok (.list (← toList v))
    | _ => arity 0 1
  | "range" =>
    match args with
    | [stop] => do integers 0 (← position stop)
    | [start, stop] => do integers (← position start) (← position stop)
    | _ => arity 1 2
  | "contains" =>
    match args with
    | [container, item] => do .ok (.bool (← contains container item))
    | _ => arity 2 2
  | "startswith" | "startsWith" =>
    match args with
    | [.text s, .text t] => .ok (.bool (Text.startsWith s t))
    | [_, _] => .ok (.bool false)
    | _ => arity 2 2
  | "endswith" | "endsWith" =>
    match args with
    | [.text s, .text t] => .ok (.bool (Text.endsWith s t))
    | [_, _] => .ok (.bool false)
    | _ => arity 2 2
  | _ => .error (.unknownFunction function)

end Deskhand.Expr
