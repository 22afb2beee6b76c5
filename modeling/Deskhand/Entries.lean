/-!
# Entries

Named values in the order in which the names first came. Writing to a name that is there keeps its
place; a new name goes to the end. What a name is bound to (`get?`) does not depend on the order.
-/

namespace Deskhand

/-- Named values in insertion order. -/
abbrev Entries (α : Type) := List (String × α)

namespace Entries

variable {α : Type}

/-- The value bound to a name. -/
def get? (name : String) : Entries α → Option α
  | [] => none
  | (n, v) :: rest => if n = name then some v else get? name rest

/-- Whether a name is bound. -/
def has (name : String) (es : Entries α) : Bool := (es.get? name).isSome

/-- Bind a name: in its place if it is there, else at the end. -/
def put (name : String) (value : α) : Entries α → Entries α
  | [] => [(name, value)]
  | (n, v) :: rest => if n = name then (n, value) :: rest else (n, v) :: put name value rest

/-- Bind a name that is not bound yet; a bound one stays as it is. -/
def putNew (name : String) (value : α) (es : Entries α) : Entries α :=
  if es.has name then es else es.put name value

/-- Bind every name of the second list in turn. -/
def putAll (es more : Entries α) : Entries α :=
  more.foldl (fun acc e => acc.put e.1 e.2) es

/-- Forget a name; the others keep their order. -/
def erase (name : String) (es : Entries α) : Entries α := es.filter (·.1 ≠ name)

/-- Forget a name and let the last entry move into its place. -/
def swapRemove (name : String) (es : Entries α) : Entries α :=
  match es.reverse with
  | [] => []
  | last :: initReversed =>
    if last.1 = name then initReversed.reverse
    else if es.has name then
      initReversed.reverse.map fun e => if e.1 = name then last else e
    else es

/-- The names, in order. -/
def names (es : Entries α) : List String := es.map (·.1)

/-- The values, in order. -/
def values (es : Entries α) : List α := es.map (·.2)

/-- The entries sorted by name. -/
def sorted (es : Entries α) : Entries α := es.mergeSort fun a b => a.1 ≤ b.1

/-! ## Writing and reading back -/

@[simp] theorem get?_nil (name : String) : get? name ([] : Entries α) = none := rfl

@[simp] theorem get?_put_self (name : String) (value : α) (es : Entries α) :
    (es.put name value).get? name = some value := by
  induction es with
  | nil => simp [put, get?]
  | cons e rest ih => by_cases h : e.1 = name <;> simp [put, get?, h, ih]

theorem get?_put_of_ne {name other : String} (value : α) (es : Entries α) (h : other ≠ name) :
    (es.put name value).get? other = es.get? other := by
  induction es with
  | nil => simp [put, get?, h.symm]
  | cons e rest ih =>
    by_cases he : e.1 = name
    · simp [put, get?, he, h.symm]
    · by_cases ho : e.1 = other
      · subst ho; simp [put, get?, he]
      · simp [put, get?, he, ho, ih]

end Entries

end Deskhand
