import Deskhand.Expr.Tree

/-!
# Free names

The names that expressions and statements read.
-/

namespace Deskhand.Expr

mutual

/-- The names that an expression reads, as often as it does. -/
def names : Expr → List String
  | .name s => [s]
  | .null | .bool _ | .int _ | .real _ | .text _ => []
  | .list items => namesOfItems items
  | .dict entries => namesOfEntries entries
  | .neg e | .not e | .attr e _ => names e
  | .and l r | .or l r | .binary l _ r | .index l r => names l ++ names r
  | .compare first rest => names first ++ namesOfChain rest
  | .conditional test body orelse => names test ++ names body ++ names orelse
  | .slice base start stop => names base ++ namesOfBound start ++ namesOfBound stop
  | .call _ args => namesOfItems args
  | .method receiver _ args => names receiver ++ namesOfItems args

def namesOfItems : List Expr → List String
  | [] => []
  | e :: rest => names e ++ namesOfItems rest

def namesOfEntries : List (Expr × Expr) → List String
  | [] => []
  | (k, e) :: rest => names k ++ names e ++ namesOfEntries rest

def namesOfChain : List (CompareOp × Expr) → List String
  | [] => []
  | (_, e) :: rest => names e ++ namesOfChain rest

def namesOfBound : Option Expr → List String
  | none => []
  | some e => names e

end

/-- The names that the subscripts of a target read. -/
def Accessor.names : Accessor → List String
  | index e => Expr.names e
  | key _ => []

/-- The names that a statement reads; a plain assignment to a name does not read that name. -/
def Statement.names : Statement → List String
  | assign target op e =>
    Expr.names e ++ (if target.path.isEmpty && op == .set then [] else [target.name]) ++
      target.path.flatMap Accessor.names
  | expr e => Expr.names e

/-- Insert a name among sorted ones, unless it is there. -/
def insertName (name : String) : List String → List String
  | [] => [name]
  | n :: rest =>
    if name = n then n :: rest
    else if name < n then name :: n :: rest
    else n :: insertName name rest

/-- Names in ascending order, each once. -/
def sortedNames (names : List String) : List String :=
  names.foldl (fun sorted name => insertName name sorted) []

/-- The names that an expression reads, sorted. -/
def freeNames (e : Expr) : List String := sortedNames e.names

/-- The names that statements read, sorted. -/
def freeNamesOfAll (statements : List Statement) : List String :=
  sortedNames (statements.flatMap Statement.names)

end Deskhand.Expr
