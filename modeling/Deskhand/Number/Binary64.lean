import Deskhand.Number.Word

/-!
# Binary64 numbers

Every finite binary64 number is a whole number of units of 2⁻¹⁰⁷⁴, the smallest magnitude the
format has. A finite number is kept as its sign and that count, with the proof that the count has
at most 53 significant bits and stays below 2¹⁰²⁴. Sums and differences are then sums of integers,
products and quotients are quotients of integers, comparisons are comparisons of integers, and the
only rounding is in `roundUnits`: to the nearest count that fits, halfway to the even one.
-/

namespace Deskhand

/-- The units in the number one. -/
def unitsPerOne : Nat := Nat.pow 2 1074

/-- The exponent of the first power of two that is out of range, in units. -/
def limitExponent : Nat := 1024 + 1074

/-- The first count of units that is out of range: 2¹⁰²⁴. -/
def unitsLimit : Nat := Nat.pow 2 limitExponent

/-- A count of units is a finite magnitude if it is in range and has 53 significant bits at most. -/
def Fits (units : Nat) : Prop :=
  units < unitsLimit ∧ Nat.pow 2 (units.log2 - 52) ∣ units

instance (units : Nat) : Decidable (Fits units) :=
  inferInstanceAs (Decidable (_ ∧ _))

theorem fits_zero : Fits 0 := by decide +kernel

/-- A finite binary64 number; the sign of zero is kept. -/
structure Finite64 where
  negative : Bool
  units : Nat
  fits : Fits units
  deriving DecidableEq

/-- A binary64 number. -/
inductive Binary64 where
  | finite (x : Finite64)
  | infinite (negative : Bool)
  | nan
  deriving DecidableEq

/-- The integer nearest to `num / den`; a half goes to the even neighbour. -/
def divRoundEven (num den : Nat) : Nat :=
  let q := num / den
  let r := num % den
  if 2 * r < den then q
  else if den < 2 * r then q + 1
  else if q % 2 = 0 then q else q + 1

/-- The count with at most 53 significant bits that is nearest to `num / den`. -/
def roundUnits (num den : Nat) : Nat :=
  let grain := Nat.pow 2 ((num / den).log2 - 52)
  divRoundEven num (den * grain) * grain

namespace Finite64

/-- Positive zero. -/
def zero : Finite64 := ⟨false, 0, fits_zero⟩

/-- The signed count of units. -/
def value (x : Finite64) : Int :=
  if x.negative then -(x.units : Int) else x.units

/-- The count of units is the magnitude. -/
theorem natAbs_value (x : Finite64) : x.value.natAbs = x.units := by
  unfold value
  split <;> omega

/-- The whole part, cut toward zero. -/
def truncate (x : Finite64) : Int :=
  let whole : Nat := x.units / unitsPerOne
  if x.negative then -(whole : Int) else whole

/-- The number with the other sign. -/
def neg (x : Finite64) : Finite64 := { x with negative := !x.negative }

/-- The number without its sign. -/
def abs (x : Finite64) : Finite64 := { x with negative := false }

/-- Zero of either sign. -/
def isZero (x : Finite64) : Bool := x.units == 0

end Finite64

namespace Binary64

/-- Positive zero. -/
def zero : Binary64 := .finite .zero

/-- The number of a count of units; a count out of range is infinite. -/
def ofUnits (negative : Bool) (units : Nat) : Binary64 :=
  if h : Fits units then .finite ⟨negative, units, h⟩ else .infinite negative

/-- The number nearest to `num / den` units. -/
def ofQuotient (negative : Bool) (num den : Nat) : Binary64 :=
  ofUnits negative (roundUnits num den)

/-- The number nearest to an integer. -/
def ofInt (n : Int) : Binary64 :=
  ofQuotient (n < 0) (n.natAbs * unitsPerOne) 1

/-- The number one. -/
def one : Binary64 := ofInt 1

/-- Zero of either sign. -/
def isZero : Binary64 → Bool
  | .finite x => x.isZero
  | _ => false

/-- The sign bit; that of a NaN is not observed. -/
def isNegative : Binary64 → Bool
  | .finite x => x.negative
  | .infinite negative => negative
  | .nan => false

/-- The number with the other sign. -/
def neg : Binary64 → Binary64
  | .finite x => .finite x.neg
  | .infinite negative => .infinite !negative
  | .nan => .nan

/-- The number without its sign. -/
def abs : Binary64 → Binary64
  | .finite x => .finite x.abs
  | .infinite _ => .infinite false
  | .nan => .nan

/-- A sum that is exactly zero is negative only if both terms are. -/
def add : Binary64 → Binary64 → Binary64
  | .finite x, .finite y =>
    let sum := x.value + y.value
    if sum = 0 then ofUnits (x.negative && y.negative) 0
    else ofQuotient (sum < 0) sum.natAbs 1
  | .infinite a, .infinite b => if a = b then .infinite a else .nan
  | .infinite a, .finite _ => .infinite a
  | .finite _, .infinite b => .infinite b
  | .nan, _ => .nan
  | _, .nan => .nan

/-- A difference is the sum with the other sign. -/
def sub (x y : Binary64) : Binary64 := x.add y.neg

def mul : Binary64 → Binary64 → Binary64
  | .finite x, .finite y => ofQuotient (x.negative != y.negative) (x.units * y.units) unitsPerOne
  | .infinite a, .infinite b => .infinite (a != b)
  | .infinite a, .finite y => if y.isZero then .nan else .infinite (a != y.negative)
  | .finite x, .infinite b => if x.isZero then .nan else .infinite (x.negative != b)
  | .nan, _ => .nan
  | _, .nan => .nan

def div : Binary64 → Binary64 → Binary64
  | .finite x, .finite y =>
    let negative := x.negative != y.negative
    if y.isZero then (if x.isZero then .nan else .infinite negative)
    else ofQuotient negative (x.units * unitsPerOne) y.units
  | .infinite _, .infinite _ => .nan
  | .infinite a, .finite y => .infinite (a != y.negative)
  | .finite x, .infinite b => ofUnits (x.negative != b) 0
  | .nan, _ => .nan
  | _, .nan => .nan

instance : Add Binary64 := ⟨add⟩
instance : Sub Binary64 := ⟨sub⟩
instance : Mul Binary64 := ⟨mul⟩
instance : Div Binary64 := ⟨div⟩
instance : Neg Binary64 := ⟨neg⟩

/-- The order of two numbers; a NaN has none. -/
def order? : Binary64 → Binary64 → Option Ordering
  | .finite x, .finite y => some (compare x.value y.value)
  | .infinite a, .infinite b =>
    some (if a = b then .eq else if a then .lt else .gt)
  | .infinite a, .finite _ => some (if a then .lt else .gt)
  | .finite _, .infinite b => some (if b then .gt else .lt)
  | .nan, _ => none
  | _, .nan => none

/-- Numeric equality: the two zeros are equal, a NaN equals nothing. -/
def same (x y : Binary64) : Bool := x.order? y == some .eq

def lt (x y : Binary64) : Bool := x.order? y == some .lt

def le (x y : Binary64) : Bool := x.order? y == some .lt || x.order? y == some .eq

/-- The larger of two numbers; a NaN gives way to the other one. -/
def max (x y : Binary64) : Binary64 :=
  match x, y with
  | .nan, _ => y
  | _, .nan => x
  | _, _ => if x.lt y then y else x

/-- The largest integer not above the number, with the number's sign if it is whole. -/
def floor : Binary64 → Binary64
  | .finite x =>
    let whole := x.units / unitsPerOne
    if x.units % unitsPerOne = 0 then .finite x
    else ofUnits x.negative ((if x.negative then whole + 1 else whole) * unitsPerOne)
  | x => x

/-- The nearest integer; a half goes away from zero. -/
def round : Binary64 → Binary64
  | .finite x =>
    ofUnits x.negative ((2 * x.units + unitsPerOne) / (2 * unitsPerOne) * unitsPerOne)
  | x => x

/-- Cut to an integer and held between `lo` and `hi`; a NaN is zero. -/
def toIntBetween (lo hi : Int) : Binary64 → Int
  | .finite x => Max.max lo (min hi x.truncate)
  | .infinite negative => if negative then lo else hi
  | .nan => 0

/-- Cut to an integer of 64 bits with sign. -/
def toInt64 (x : Binary64) : Int := x.toIntBetween Word.minInt Word.maxInt

/-- Cut to an integer of 64 bits without sign. -/
def toNat64 (x : Binary64) : Nat := (x.toIntBetween 0 (Word.count64 - 1)).toNat

/-- The finite number, unless it is infinite or a NaN. -/
def toFinite? : Binary64 → Option Finite64
  | .finite x => some x
  | _ => none

/-- `acc * base ^ n`, by squaring the base for each binary digit of the exponent. -/
def powFrom (base acc : Binary64) (n : Nat) : Binary64 :=
  let acc := if n % 2 = 1 then acc * base else acc
  if n / 2 = 0 then acc else powFrom (base * base) acc (n / 2)
termination_by n
decreasing_by omega

/-- An integer power; a negative one is the reciprocal of the positive one. -/
def pow (base : Binary64) (n : Int) : Binary64 :=
  let magnitude := powFrom base one n.natAbs
  if n < 0 then one / magnitude else magnitude

end Binary64

end Deskhand
