/-!
# What is left of a list

A reader that takes items off the front of a list returns what is left with the proof that it is
shorter, which is what lets the readers built on it end.
-/

namespace Deskhand

variable {α : Type}

/-- What is left of a list after at least one item was taken. -/
abbrev Shorter (xs : List α) : Type := { rest : List α // rest.length < xs.length }

/-- What is left of a list, perhaps all of it. -/
abbrev NoLonger (xs : List α) : Type := { rest : List α // rest.length ≤ xs.length }

/-- The list itself, with nothing taken. -/
def NoLonger.all (xs : List α) : NoLonger xs := ⟨xs, Nat.le_refl _⟩

/-- What is left after one item was taken. -/
def NoLonger.tail {x : α} {xs : List α} : NoLonger (x :: xs) := ⟨xs, Nat.le_succ _⟩

/-- What is left after an item and then perhaps more were taken. -/
def NoLonger.afterHead {x : α} {xs : List α} (rest : NoLonger xs) : NoLonger (x :: xs) :=
  ⟨rest.1, Nat.le_succ_of_le rest.2⟩

/-- What is left of the end of a list is no longer than the list. -/
def NoLonger.ofTail {xs ys : List α} (h : ys.length ≤ xs.length) (rest : NoLonger ys) :
    NoLonger xs :=
  ⟨rest.1, Nat.le_trans rest.2 h⟩

/-- What is left after an item and then `rest` were taken. -/
def Shorter.afterHead {x : α} {xs : List α} (rest : NoLonger xs) : Shorter (x :: xs) :=
  ⟨rest.1, Nat.lt_succ_of_le rest.2⟩

/-- What is left after two readers in turn. -/
def Shorter.andThen {xs : List α} (first : Shorter xs) (second : Shorter first.1) : Shorter xs :=
  ⟨second.1, Nat.lt_trans second.2 first.2⟩

/-- What is left after two readers in turn, the second of which may take nothing. -/
def Shorter.andMaybe {xs : List α} (first : Shorter xs) (second : NoLonger first.1) : Shorter xs :=
  ⟨second.1, Nat.lt_of_le_of_lt second.2 first.2⟩

/-- Fewer items are not more. -/
def Shorter.weaken {xs : List α} (rest : Shorter xs) : NoLonger xs := ⟨rest.1, Nat.le_of_lt rest.2⟩

end Deskhand
