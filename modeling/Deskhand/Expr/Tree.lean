import Deskhand.Expr.Error

/-!
# Syntax trees

Expressions, assignment targets and statements, and their printed form.
-/

namespace Deskhand

namespace Expr

/-- An operation on two values. -/
inductive BinaryOp where
  | add | sub | mul | div | floorDiv | modulo
  deriving DecidableEq

/-- A comparison of two values. -/
inductive CompareOp where
  | equal | notEqual | less | lessEqual | greater | greaterEqual
  | isIn | notIn | isSame | notSame
  deriving DecidableEq

/-- How an assignment combines the old value with the new one. -/
inductive AssignOp where
  | set | add | sub
  deriving DecidableEq

end Expr

/-- An expression. -/
inductive Expr where
  | null
  | bool (b : Bool)
  | int (n : Int)
  | real (x : Binary64)
  | text (s : String)
  | name (s : String)
  | list (items : List Expr)
  | dict (entries : List (Expr × Expr))
  | neg (e : Expr)
  | not (e : Expr)
  | and (l r : Expr)
  | or (l r : Expr)
  | binary (l : Expr) (op : Expr.BinaryOp) (r : Expr)
  /-- A chain such as `a < b <= c`. -/
  | compare (first : Expr) (rest : List (Expr.CompareOp × Expr))
  | conditional (test body orelse : Expr)
  | index (base i : Expr)
  | slice (base : Expr) (start stop : Option Expr)
  | attr (base : Expr) (key : String)
  | call (function : String) (args : List Expr)
  | method (receiver : Expr) (function : String) (args : List Expr)

namespace Expr

/-- One step into a container. -/
inductive Accessor where
  | index (i : Expr)
  | key (k : String)

/-- What can be assigned to: a name and a path into its value. -/
structure Target where
  name : String
  path : List Accessor

/-- A statement. -/
inductive Statement where
  | assign (target : Target) (op : AssignOp) (value : Expr)
  | expr (e : Expr)

/-- The target that an expression denotes: a name followed by subscripts and attributes. -/
def toTarget? : Expr → Option Target
  | .name s => some ⟨s, []⟩
  | .index base i => base.toTarget?.map fun t => ⟨t.name, t.path ++ [.index i]⟩
  | .attr base key => base.toTarget?.map fun t => ⟨t.name, t.path ++ [.key key]⟩
  | _ => none

/-- The name of an operation in messages and printed trees. -/
def BinaryOp.shown : BinaryOp → String
  | add => "Add"
  | sub => "Sub"
  | mul => "Mul"
  | div => "Div"
  | floorDiv => "FloorDiv"
  | modulo => "Mod"

def CompareOp.shown : CompareOp → String
  | equal => "Eq"
  | notEqual => "NotEq"
  | less => "Lt"
  | lessEqual => "LtE"
  | greater => "Gt"
  | greaterEqual => "GtE"
  | isIn => "In"
  | notIn => "NotIn"
  | isSame => "Is"
  | notSame => "IsNot"

def AssignOp.shown : AssignOp → String
  | set => "Set"
  | add => "Add"
  | sub => "Sub"

mutual

/-- The printed form of a tree. -/
def shown : Expr → String
  | .null => "Null"
  | .bool b => s!"Bool({b})"
  | .int n => s!"Int({n})"
  | .real x => s!"Float({NumberLayout.tree.render x})"
  | .text s => s!"Str({Text.shown s})"
  | .name s => s!"Name({Text.shown s})"
  | .list items => "List([" ++ shownItems items ++ "])"
  | .dict entries => "Dict([" ++ shownEntries entries ++ "])"
  | .neg e => s!"Neg({shown e})"
  | .not e => s!"Not({shown e})"
  | .and l r => s!"And({shown l}, {shown r})"
  | .or l r => s!"Or({shown l}, {shown r})"
  | .binary l op r => s!"Binary({shown l}, {op.shown}, {shown r})"
  | .compare first rest => "Compare(" ++ shown first ++ ", [" ++ shownChain rest ++ "])"
  | .conditional test body orelse =>
    "Conditional \x7b test: " ++ shown test ++ ", body: " ++ shown body ++ ", orelse: " ++
      shown orelse ++ " \x7d"
  | .index base i => s!"Index({shown base}, {shown i})"
  | .slice base start stop =>
    s!"Slice({shown base}, {shownBound start}, {shownBound stop})"
  | .attr base key => s!"Attr({shown base}, {Text.shown key})"
  | .call function args => "Call(" ++ Text.shown function ++ ", [" ++ shownItems args ++ "])"
  | .method receiver m args =>
    "Method(" ++ shown receiver ++ ", " ++ Text.shown m ++ ", [" ++ shownItems args ++ "])"

/-- Trees separated by commas. -/
def shownItems : List Expr → String
  | [] => ""
  | [e] => shown e
  | e :: rest => shown e ++ ", " ++ shownItems rest

/-- Pairs of key and value, separated by commas. -/
def shownEntries : List (Expr × Expr) → String
  | [] => ""
  | [(k, v)] => s!"({shown k}, {shown v})"
  | (k, v) :: rest => s!"({shown k}, {shown v}), " ++ shownEntries rest

/-- Pairs of comparison and operand, separated by commas. -/
def shownChain : List (CompareOp × Expr) → String
  | [] => ""
  | [(op, e)] => s!"({op.shown}, {shown e})"
  | (op, e) :: rest => s!"({op.shown}, {shown e}), " ++ shownChain rest

/-- A bound of a slice, which may be left out. -/
def shownBound : Option Expr → String
  | none => "None"
  | some e => s!"Some({shown e})"

end

def Accessor.shown : Accessor → String
  | index i => s!"Index({Expr.shown i})"
  | key k => s!"Key({Text.shown k})"

/-- The printed form of a target. -/
def Target.shown (t : Target) : String :=
  "Target \x7b name: " ++ Text.shown t.name ++ ", path: [" ++
    ", ".intercalate (t.path.map Accessor.shown) ++ "] \x7d"

/-- The printed form of a statement. -/
def Statement.shown : Statement → String
  | assign target op value => s!"Assign({target.shown}, {op.shown}, {Expr.shown value})"
  | expr e => s!"Expr({Expr.shown e})"

end Expr

end Deskhand
