import Deskhand.Value.Basic

/-!
# Floored division of words

The division of 64-bit integers cuts the quotient toward zero and leaves a remainder with the sign of
the dividend. The floor of the quotient, and a remainder with the sign of the divisor, take one more
step where the signs differ and something is left over. That step is not checked: what it makes of its
exact result is a parameter, and `wrapped` is what the machine does.
-/

namespace Deskhand.Expr

open Value (IsInt64)

/-- An exact result cut to its low 64 bits, which are read with their sign. -/
def wrapped (n : Int) : Id Int := n.bmod Word.count64

/-- The quotient cut toward zero. There is none by zero, nor one of more than 64 bits. -/
def cutQuotient? (a b : Int) : Option Int :=
  if b ≠ 0 ∧ IsInt64 (a.tdiv b) then some (a.tdiv b) else none

/-- Whether one integer is negative and the other one is not. -/
def signsDiffer (a b : Int) : Bool := decide (a < 0) != decide (b < 0)

section Steps

variable {m : Type → Type} [Monad m] (plain : Int → m Int)

/-- The floor of a quotient: one less than the cut quotient if that was cut upward. -/
def floorQuotient? (a b : Int) : m (Option Int) :=
  match cutQuotient? a b with
  | none => pure none
  | some q => if a.tmod b ≠ 0 ∧ signsDiffer a b then some <$> plain (q - 1) else pure (some q)

/-- What the floor of a quotient leaves over: the divisor more than the cut quotient leaves, if that
has the other sign. -/
def floorRest (a b : Int) : m Int :=
  let r := a.tmod b
  if r ≠ 0 ∧ signsDiffer r b then plain (r + b) else pure r

end Steps

end Deskhand.Expr
