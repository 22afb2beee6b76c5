import Deskhand.Expr.Division
import Deskhand.Expr.Tree
import Deskhand.Text.Search
import Deskhand.Value.Compare
import Deskhand.Json.Printer

/-!
# Looking into containers

Membership, subscripts and slices, and the comparisons built on them. Texts count in characters;
a negative position counts from the end. The keys of an object are texts: any other value is looked
up by its display text.
-/

namespace Deskhand.Expr

open Value (quantity?)

/-- The error of two values without an order. -/
def ofUnordered : Value.Unordered → ExprError
  | .kinds left right => .type (.unordered left right)
  | .notNumber => .type .unorderedNumber

/-- The order of two values, or the error that they have none. -/
def orderOf (left right : Value) : Except ExprError Ordering :=
  match Value.order left right with
  | .ok o => .ok o
  | .error e => .error (ofUnordered e)

/-- A position: an integer or a truth value. -/
def position (v : Value) : Except ExprError Int :=
  match quantity? v with
  | some (.int n) => .ok n
  | _ => .error (.type (.index v.kindName))

/-- The place among `length` items that a position denotes. -/
def place? (i : Int) (length : Nat) : Option Nat :=
  let at' := if i < 0 then (length : Int) + i else i
  if 0 ≤ at' ∧ at' < length then some at'.toNat else none

/-- Whether a container holds an item. -/
def contains (container item : Value) : Except ExprError Bool :=
  match container with
  | .text s =>
    match item with
    | .text t => .ok (Text.occursIn t s)
    | other => .error (.type (.textMember other.kindName))
  | .list items => .ok (items.any fun v => v.equal item)
  | .object es => .ok (Entries.has item.display es)
  | .null => .ok false
  | other => .error (.type (.noMembers other.kindName))

/-- Whether two values stand in a comparison. -/
def compareValues (left : Value) (op : CompareOp) (right : Value) : Except ExprError Bool :=
  match op with
  | .equal => .ok (left.equal right)
  | .notEqual => .ok (!left.equal right)
  | .less => (orderOf left right).map (· == .lt)
  | .lessEqual => (orderOf left right).map (· != .gt)
  | .greater => (orderOf left right).map (· == .gt)
  | .greaterEqual => (orderOf left right).map (· != .lt)
  | .isIn => contains right left
  | .notIn => (contains right left).map (!·)
  | .isSame => .ok (left.same right)
  | .notSame => .ok (!left.same right)

/-- The item at a position, or the entry of a key. -/
def subscriptValue (base i : Value) : Except ExprError Value :=
  match base with
  | .list items => do
    let n ← position i
    match (place? n items.length).bind (items[·]?) with
    | some v => .ok v
    | none => .error (.index (.listIndex n))
  | .text s => do
    let n ← position i
    let cs := s.toList
    match (place? n cs.length).bind (cs[·]?) with
    | some c => .ok (.text c.toString)
    | none => .error (.index (.textIndex n))
  | .object es =>
    let key := i.display
    match Entries.get? key es with
    | some v => .ok v
    | none => .error (.index (.key key))
  | other => .error (.type (.noSubscript other.kindName))

section Bounds

variable {m : Type → Type} [Monad m] (plain : Int → m Int)

/-- A position counted from the start. What a negative one amounts to is not checked for its width. -/
def fromStart (length : Nat) (i : Int) : m Int :=
  if i < 0 then plain (length + i) else pure i

/-- A bound of a slice, counted from the start and held inside the container. -/
def clampBound (length : Nat) (i : Int) : m Nat := do
  let offset ← fromStart plain length i
  pure (max 0 (min (length : Int) offset)).toNat

/-- Where a bound of a slice lies; one that is not given lies at an end of the container. -/
def boundOr (default length : Nat) : Option Int → m Nat
  | some i => clampBound plain length i
  | none => pure default

/-- Where a slice begins and ends. -/
def sliceBounds (length : Nat) (start stop : Option Int) : m (Nat × Nat) := do
  let first ← boundOr plain 0 length start
  let last ← boundOr plain length length stop
  pure (first, max first last)

end Bounds

/-- The items of a list between two bounds. -/
def sliceItems {α : Type} (items : List α) (start stop : Option Int) : List α :=
  let (first, last) := (sliceBounds wrapped items.length start stop).run
  (items.take last).drop first

/-- A slice of a list or text. -/
def sliceValue (base : Value) (start stop : Option Int) : Except ExprError Value :=
  match base with
  | .list items => .ok (.list (sliceItems items start stop))
  | .text s => .ok (.text (String.ofList (sliceItems s.toList start stop)))
  | other => .error (.type (.noSlice other.kindName))

/-- The entry of an object that an attribute names. -/
def attributeValue (base : Value) (key : String) : Except ExprError Value :=
  match base with
  | .object es =>
    match Entries.get? key es with
    | some v => .ok v
    | none => .error (.index (.key key))
  | other => .error (.type (.noAttribute other.kindName key))

end Deskhand.Expr
