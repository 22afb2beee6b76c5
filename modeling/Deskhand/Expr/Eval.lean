import Deskhand.Expr.Function
import Deskhand.Expr.Method

/-!
# Evaluation

The value of an expression in a scope. Operands are evaluated from left to right; `and`, `or`, a
chain of comparisons and a conditional leave the operands that they do not need.
-/

namespace Deskhand.Expr

/-- What the names of an expression stand for. -/
abbrev Scope : Type := String → Option Value

mutual

/-- The value of an expression. -/
def eval (scope : Scope) : Expr → Except ExprError Value
  | .null => .ok .null
  | .bool b => .ok (.bool b)
  | .int n => .ok (.int n)
  | .real x => .ok (.real x)
  | .text s => .ok (.text s)
  | .name s =>
    match scope s with
    | some v => .ok v
    | none => .error (.undefinedName s)
  | .list items => do .ok (.list (← evalItems scope items))
  | .dict entries => do .ok (.object (← evalEntries scope [] entries))
  | .neg e => do negate (← eval scope e)
  | .not e => do .ok (.bool (!(← eval scope e).isTruthy))
  | .and l r => do
    let left ← eval scope l
    if left.isTruthy then eval scope r else .ok left
  | .or l r => do
    let left ← eval scope l
    if left.isTruthy then .ok left else eval scope r
  | .binary l op r => do
    let left ← eval scope l
    let right ← eval scope r
    operate left op right
  | .compare first rest => do evalChain scope (← eval scope first) rest
  | .conditional test body orelse => do
    if (← eval scope test).isTruthy then eval scope body else eval scope orelse
  | .index base i => do
    let container ← eval scope base
    subscriptValue container (← eval scope i)
  | .slice base start stop => do
    let container ← eval scope base
    let first ← evalBound scope start
    let last ← evalBound scope stop
    sliceValue container first last
  | .attr base key => do attributeValue (← eval scope base) key
  | .call function args => do callFunction function (← evalItems scope args)
  | .method receiver function args => do
    let v ← eval scope receiver
    callMethod v function (← evalItems scope args)

/-- The values of several expressions. -/
def evalItems (scope : Scope) : List Expr → Except ExprError (List Value)
  | [] => .ok []
  | e :: rest => do
    let v ← eval scope e
    .ok (v :: (← evalItems scope rest))

/-- The entries of an object display, added to those before them. -/
def evalEntries (scope : Scope) (before : Entries Value) :
    List (Expr × Expr) → Except ExprError (Entries Value)
  | [] => .ok before
  | (k, e) :: rest => do
    let key ← eval scope k
    let v ← eval scope e
    evalEntries scope (before.put key.display v) rest

/-- Whether all comparisons of a chain hold; the first that does not ends it. -/
def evalChain (scope : Scope) (left : Value) :
    List (CompareOp × Expr) → Except ExprError Value
  | [] => .ok (.bool true)
  | (op, e) :: rest => do
    let right ← eval scope e
    if ← compareValues left op right then evalChain scope right rest else .ok (.bool false)

/-- The position that a bound of a slice denotes. -/
def evalBound (scope : Scope) : Option Expr → Except ExprError (Option Int)
  | none => .ok none
  | some e => do .ok (some (← position (← eval scope e)))

end

end Deskhand.Expr
