import Deskhand.Expr.Eval

/-!
# Assignment

Writing to a target and running statements. The path of a target is evaluated first and then walked
into the value of its name. On the way down an object gets every key that it does not have, bound to
null, and keeps it even if the walk or the combination at its end then fails.
-/

namespace Deskhand.Expr

/-- One evaluated step of a path. -/
inductive Step where
  | position (i : Int)
  | key (k : String)
  deriving DecidableEq

/-- The step that an accessor denotes: a text is a key, all else must be a position. -/
def evalAccessor (scope : Scope) : Accessor → Except ExprError Step
  | .key k => .ok (.key k)
  | .index e => do
    match ← eval scope e with
    | .text k => .ok (.key k)
    | v => .ok (.position (← Expr.position v))

/-- The steps that a path denotes. -/
def evalPath (scope : Scope) (path : List Accessor) : Except ExprError (List Step) :=
  path.mapM (evalAccessor scope)

/-- Replace the item at a place. -/
def setAt {α : Type} (items : List α) (i : Nat) (v : α) : List α := items.set i v

/-- The value after `change` was made at the end of a path, and the error that stopped it, if one
did: what was done before the error stays. -/
def writeAt (change : Value → Except ExprError Value) : List Step → Value → Value × Option ExprError
  | [], v =>
    match change v with
    | .ok w => (w, none)
    | .error e => (v, some e)
  | step :: rest, .list items =>
    match step with
    | .position i =>
      match place? i items.length with
      | some n =>
        let (item, error) := writeAt change rest (items[n]?.getD .null)
        (.list (setAt items n item), error)
      | none => (.list items, some (.index (.assignedIndex i)))
    | .key _ => (.list items, some (.type (.noItemAssignment "list")))
  | step :: rest, .object es =>
    let key := match step with
      | .position i => toString i
      | .key k => k
    let (entry, error) := writeAt change rest ((Entries.get? key es).getD .null)
    (.object (Entries.put key entry es), error)
  | _ :: _, v => (v, some (.type (.noItemAssignment v.kindName)))

/-- What an assignment makes of the old value. -/
def combine (op : AssignOp) (new old : Value) : Except ExprError Value :=
  match op with
  | .set => .ok new
  | .add => operate old .add new
  | .sub => operate old .sub new

/-- Names and their values after an assignment, and the error that stopped it, if one did. -/
def assign (target : Target) (op : AssignOp) (new : Value) (vars : Entries Value) :
    Entries Value × Option ExprError :=
  match evalPath vars.get? target.path with
  | .error e => (vars, some e)
  | .ok path =>
    if path = [] ∧ op = .set then (vars.put target.name new, none)
    else
      match vars.get? target.name with
      | none => (vars, some (.undefinedName target.name))
      | some old =>
        let (value, error) := writeAt (combine op new) path old
        (vars.put target.name value, error)

/-- Run statements in order, from the value `last` of the statement before them. The result is the
value of the last expression, or null after an assignment. -/
def runFrom (last : Value) : List Statement → Entries Value → Entries Value × Except ExprError Value
  | [], vars => (vars, .ok last)
  | .expr e :: rest, vars =>
    match eval vars.get? e with
    | .ok v => runFrom v rest vars
    | .error e => (vars, .error e)
  | .assign target op e :: rest, vars =>
    match eval vars.get? e with
    | .error e => (vars, .error e)
    | .ok v =>
      match assign target op v vars with
      | (vars, none) => runFrom .null rest vars
      | (vars, some e) => (vars, .error e)

/-- Run statements in order: the names afterwards, also after an error, and the result. -/
def run (statements : List Statement) (vars : Entries Value) :
    Entries Value × Except ExprError Value :=
  runFrom .null statements vars

end Deskhand.Expr
