/-!
# Computations that may fail

How a result of a sequence of computations comes about, each of which may fail.
-/

namespace Deskhand

variable {ε α β : Type}

theorem ok_bind (a : α) (f : α → Except ε β) : Except.ok a >>= f = f a := rfl

theorem bind_eq_ok {x : Except ε α} {f : α → Except ε β} {b : β} (h : x >>= f = .ok b) :
    ∃ a, x = .ok a ∧ f a = .ok b := by
  cases x with
  | error e => cases h
  | ok a => exact ⟨a, rfl, h⟩

/-- What every step of a fold keeps is kept by the fold. -/
theorem foldlM_keeps {f : β → α → Except ε β} {I : β → Prop}
    (hI : ∀ a b b', I b → f b a = .ok b' → I b') {xs : List α} {b b' : β} (hb : I b)
    (h : xs.foldlM f b = .ok b') : I b' := by
  induction xs generalizing b with
  | nil =>
    cases h
    exact hb
  | cons x xs ih =>
    obtain ⟨b₁, h₁, h⟩ := bind_eq_ok h
    exact ih (hI x b b₁ hb h₁) h

end Deskhand
