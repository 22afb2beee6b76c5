import Deskhand.Number.Binary64

/-!
# Decimals

Reading a decimal as the nearest binary64 number, and finding the shortest decimal that reads back
as a given one.
-/

namespace Deskhand

/-- The decimal `digits · 10 ^ exponent`. -/
structure Decimal where
  digits : Nat
  exponent : Int
  deriving DecidableEq

/-- The binary64 number nearest to a decimal. Exponents that are far out of range for the number of
digits are settled first, so that no larger power of ten is computed than the range needs. -/
def Binary64.ofDecimal (negative : Bool) (d : Decimal) : Binary64 :=
  if d.digits = 0 then .ofUnits negative 0
  else if 400 < d.exponent then .infinite negative
  else if d.exponent < -400 - (d.digits.log2 : Int) then .ofUnits negative 0
  else if 0 ≤ d.exponent then
    .ofQuotient negative (d.digits * Nat.pow 10 d.exponent.toNat * unitsPerOne) 1
  else .ofQuotient negative (d.digits * unitsPerOne) (Nat.pow 10 (-d.exponent).toNat)

namespace Decimal

/-- How many digits a natural number has; zero has none. -/
def digitCount (n : Nat) : Nat :=
  if n = 0 then 0 else digitCount (n / 10) + 1
termination_by n
decreasing_by omega

/-- The exponent `e` with `10 ^ e ≤ num / den < 10 ^ (e + 1)`, for positive `num` and `den`. -/
def magnitude (num den : Nat) : Int :=
  if den ≤ num then (digitCount (num / den) : Int) - 1
  else -(digitCount ((den - 1) / num) : Int)

/-- The reals that round to a count of units, in quarters of a unit, ends included if `closed`. -/
structure Basin where
  low : Nat
  high : Nat
  closed : Bool

/-- Half the way to either neighbour; below a power of two the neighbour is nearer. The ends belong
to the number whose last significant bit is zero. -/
def Basin.around (units : Nat) : Basin :=
  let grain := Nat.pow 2 (units.log2 - 52)
  let below := if units = Nat.pow 2 units.log2 ∧ 1 < grain then grain else 2 * grain
  ⟨4 * units - below, 4 * units + 2 * grain, units / grain % 2 == 0⟩

/-- Whether `num / den` quarters of a unit lie in the basin. -/
def Basin.holds (b : Basin) (num den : Nat) : Bool :=
  if b.closed then b.low * den ≤ num && num ≤ b.high * den
  else b.low * den < num && num < b.high * den

/-- The decimal with the given exponent that is nearest to a count of units among those in its
basin, if there is one; of two equally near ones the even one. -/
def nearestOnGrid? (units : Nat) (exponent : Int) : Option Decimal :=
  let den := unitsPerOne * Nat.pow 10 exponent.toNat
  let num := units * Nat.pow 10 (-exponent).toNat
  let basin := Basin.around units
  let quarters (d : Nat) : Nat := d * den * 4
  let scale := Nat.pow 10 (-exponent).toNat
  let lower := num / den
  let upper := lower + 1
  let rest := num % den
  match basin.holds (quarters lower) scale, basin.holds (quarters upper) scale with
  | true, true =>
    if 2 * rest < den ∨ (2 * rest = den ∧ lower % 2 = 0) then some ⟨lower, exponent⟩
    else some ⟨upper, exponent⟩
  | true, false => some ⟨lower, exponent⟩
  | false, true => some ⟨upper, exponent⟩
  | false, false => none

/-- The decimal without zeros at its end. -/
def stripZeros (digits : Nat) (exponent : Int) : Decimal :=
  if h : digits ≠ 0 ∧ digits % 10 = 0 then stripZeros (digits / 10) (exponent + 1)
  else ⟨digits, exponent⟩
termination_by digits
decreasing_by omega

/-- The shortest decimal that reads back as a positive count of units: grids of one to seventeen
digits are tried in turn, and seventeen always suffice. -/
def shortest (units : Nat) : Decimal :=
  let top := magnitude units unitsPerOne
  match (List.range 17).findSome? fun n : Nat => nearestOnGrid? units (top - n) with
  | some d => stripZeros d.digits d.exponent
  | none => ⟨units, -1074⟩

end Decimal

end Deskhand
