import Deskhand.Expr.Division
import Deskhand.Expr.Tree
import Deskhand.Value.Compare

/-!
# Arithmetic

The binary operations. Integers of 64 bits stay exact as long as the result is one too, and become
reals otherwise; quotients and remainders are floored. Texts, lists and objects can be joined, and
texts and lists repeated.
-/

namespace Deskhand.Expr

open Value (Quantity quantity? IsInt64)

/-- An integer result if it fits 64 bits, else the real one. -/
def exactOr (n : Int) (x : Binary64) : Quantity := if IsInt64 n then .int n else .real x

/-- Addition, subtraction and multiplication. -/
def exactArithmetic (onInt : Int → Int → Int) (onReal : Binary64 → Binary64 → Binary64) :
    Quantity → Quantity → Quantity
  | .int a, .int b => exactOr (onInt a b) (onReal (.ofInt a) (.ofInt b))
  | a, b => .real (onReal a.toBinary64 b.toBinary64)

/-- Division of reals. -/
def divide (a b : Quantity) : Except ExprError Quantity :=
  if b.toBinary64.isZero then .error .divisionByZero
  else .ok (.real (a.toBinary64 / b.toBinary64))

/-- The floor of a quotient. -/
def floorDivide : Quantity → Quantity → Except ExprError Quantity
  | .int a, .int b =>
    if b = 0 then .error .divisionByZero
    else
      match (floorQuotient? wrapped a b).run with
      | some q => .ok (.int q)
      | none => .ok (.real (Binary64.ofInt a / Binary64.ofInt b).floor)
  | a, b =>
    if b.toBinary64.isZero then .error .divisionByZero
    else .ok (.real (a.toBinary64 / b.toBinary64).floor)

/-- What the floor of a quotient leaves: zero, or a number with the sign of the divisor. -/
def floorRemainder : Quantity → Quantity → Except ExprError Quantity
  | .int a, .int b =>
    if b = 0 then .error .divisionByZero else .ok (.int (floorRest wrapped a b).run)
  | a, b =>
    let x := a.toBinary64
    let y := b.toBinary64
    if y.isZero then .error .divisionByZero else .ok (.real (x - y * (x / y).floor))

/-- An operation on numbers. -/
def numeric (op : BinaryOp) (a b : Quantity) : Except ExprError Quantity :=
  match op with
  | .add => .ok (exactArithmetic (· + ·) (· + ·) a b)
  | .sub => .ok (exactArithmetic (· - ·) (· - ·) a b)
  | .mul => .ok (exactArithmetic (· * ·) (· * ·) a b)
  | .div => divide a b
  | .floorDiv => floorDivide a b
  | .modulo => floorRemainder a b

/-- The longest text (in bytes) or list that a repetition may build. -/
def repetitionLimit : Nat := 16777216

/-- A text or list so many times over, if the result stays below the limit; `none` for what cannot
be repeated. -/
def repeated? (v : Value) (times : Nat) : Option (Except ExprError Value) :=
  let guarded (length : Nat) (result : Unit → Value) : Except ExprError Value :=
    if repetitionLimit < length * times then
      .error (.type (.repetition v.kindName length times))
    else .ok (result ())
  match v with
  | .text s =>
    some (guarded s.utf8ByteSize fun _ =>
      .text (if s = "" then "" else String.join (List.replicate times s)))
  | .list items =>
    some (guarded items.length fun _ =>
      .list (if items.isEmpty then [] else (List.replicate times items).flatten))
  | _ => none

/-- An operation on two values. -/
def operate (left : Value) (op : BinaryOp) (right : Value) : Except ExprError Value :=
  let unsupported : ExprError := .type (.operands op.shown left.kindName right.kindName)
  match quantity? left, quantity? right with
  | some a, some b => (numeric op a b).map Quantity.toValue
  | a, b =>
    match op, left, right with
    | .add, .text s, .text t => .ok (.text (s ++ t))
    | .add, .list xs, .list ys => .ok (.list (xs ++ ys))
    | .add, .object es, .object more => .ok (.object (Entries.putAll es more))
    | .mul, _, _ =>
      match a, b with
      | _, some (.int n) => (repeated? left n.toNat).getD (.error unsupported)
      | some (.int n), _ => (repeated? right n.toNat).getD (.error unsupported)
      | _, _ => .error unsupported
    | _, _, _ => .error unsupported

end Deskhand.Expr
