import Deskhand.Value.Basic

/-!
# Comparing values

Three comparisons. `same` is identity of values: kinds count, and the entries of an object may come
in any order. `equal` is the equality of expressions: numbers and truth values compare as numbers,
also inside lists, while objects compare by `same`. `order` is the partial order behind `<` and
sorting.
-/

namespace Deskhand.Value

mutual

/-- The same value: same kind and same content. -/
def same : Value → Value → Bool
  | .null, .null => true
  | .bool a, .bool b => a == b
  | .number a, .number b => a.same b
  | .text a, .text b => a == b
  | .list a, .list b => sameItems a b
  | .object a, .object b => a.length == b.length && sameEntries a b
  | _, _ => false

/-- The same values in the same order. -/
def sameItems : List Value → List Value → Bool
  | [], [] => true
  | a :: as, b :: bs => same a b && sameItems as bs
  | _, _ => false

/-- Every entry has an entry of its name with the same value on the other side. -/
def sameEntries : List (String × Value) → List (String × Value) → Bool
  | [], _ => true
  | (name, a) :: rest, other =>
    (match Entries.get? name other with
      | some b => same a b
      | none => false) && sameEntries rest other

end

/-- A number in calculations: integers of 64 bits stay exact, all others are reals. -/
inductive Quantity where
  | int (n : Int)
  | real (x : Binary64)

namespace Quantity

def toBinary64 : Quantity → Binary64
  | .int n => .ofInt n
  | .real x => x

def toValue : Quantity → Value
  | .int n => .int n
  | .real x => .real x

end Quantity

/-- The number that a value calculates as: a number, or a truth value as one or zero. -/
def quantity? : Value → Option Quantity
  | .number (.int n) => if IsInt64 n then some (.int n) else some (.real (.ofInt n))
  | .number (.real x) => some (.real (.finite x))
  | .bool b => some (.int (if b then 1 else 0))
  | _ => none

mutual

/-- Equality of expressions. Two truth values compare as such; otherwise what calculates as a
number compares as a real number, lists compare item by item and all else by `same`. -/
def equal : Value → Value → Bool
  | .list a, .list b => equalItems a b
  | a@(.bool _), b@(.bool _) => same a b
  | a, b =>
    match quantity? a, quantity? b with
    | some x, some y => x.toBinary64.same y.toBinary64
    | _, _ => same a b

/-- Equal item by item and of one length. -/
def equalItems : List Value → List Value → Bool
  | [], [] => true
  | a :: as, b :: bs => equal a b && equalItems as bs
  | _, _ => false

end

/-- Two values that have no order, or numbers that have none. -/
inductive Unordered where
  | kinds (left right : String)
  | notNumber

mutual

/-- The order of two values: numbers by size, texts by code points, lists lexicographically. -/
def order : Value → Value → Except Unordered Ordering
  | .list a, .list b => orderItems a b
  | .text a, .text b => .ok (compare a b)
  | a, b =>
    match quantity? a, quantity? b with
    | some x, some y =>
      match x.toBinary64.order? y.toBinary64 with
      | some o => .ok o
      | none => .error .notNumber
    | _, _ => .error (.kinds a.kindName b.kindName)

/-- The first items that differ decide; if there are none, the shorter list comes first. -/
def orderItems : List Value → List Value → Except Unordered Ordering
  | [], [] => .ok .eq
  | [], _ :: _ => .ok .lt
  | _ :: _, [] => .ok .gt
  | a :: as, b :: bs =>
    match order a b with
    | .error e => .error e
    | .ok .eq => orderItems as bs
    | .ok o => .ok o

end

end Deskhand.Value
