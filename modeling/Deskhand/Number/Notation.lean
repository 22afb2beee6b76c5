import Deskhand.Number.Decimal

/-!
# Number notation

How the shortest decimal of a number is laid out. A layout says which magnitudes are written
positionally and how the others show their exponent; the digits are the same in every layout.
-/

namespace Deskhand

/-- The decisions of a number format. -/
structure NumberLayout where
  /-- Numbers from `10 ^ lowest` up to `10 ^ limit` are written positionally. -/
  lowest : Int
  limit : Int
  /-- Appended to a whole number that is written positionally. -/
  wholeSuffix : String
  /-- Written between the exponent's mark and a positive exponent. -/
  plus : String

namespace NumberLayout

/-- Values and messages write `1.0`, `0.00001` and `1e+16`. -/
def json : NumberLayout := ⟨-5, 16, ".0", "+"⟩

/-- Printed syntax trees write `1.0`, `0.0001` and `1e16`. -/
def tree : NumberLayout := ⟨-4, 16, ".0", ""⟩

/-- Plain text never uses an exponent and writes a whole number without a fraction. -/
def plain : NumberLayout := ⟨-400, 400, "", ""⟩

/-- Digits written positionally, for the number `0.d₁d₂… · 10 ^ point`. -/
def positional (layout : NumberLayout) (digits : List Char) (point : Int) : String :=
  if point ≤ 0 then
    "0." ++ String.ofList (List.replicate (-point).toNat '0' ++ digits)
  else if digits.length ≤ point.toNat then
    String.ofList (digits ++ List.replicate (point.toNat - digits.length) '0') ++ layout.wholeSuffix
  else
    String.ofList (digits.take point.toNat) ++ "." ++ String.ofList (digits.drop point.toNat)

/-- Digits written with one before the point and the exponent after them. -/
def scientific (layout : NumberLayout) (digits : List Char) (exponent : Int) : String :=
  let mantissa := match digits with
    | [] => ""
    | [d] => d.toString
    | d :: rest => d.toString ++ "." ++ String.ofList rest
  mantissa ++ "e" ++ (if 0 ≤ exponent then layout.plus else "") ++ toString exponent

/-- The text of a finite number. -/
def finite (layout : NumberLayout) (x : Finite64) : String :=
  let sign := if x.negative then "-" else ""
  if x.isZero then sign ++ "0" ++ layout.wholeSuffix
  else
    let d := Decimal.shortest x.units
    let digits := Nat.toDigits 10 d.digits
    let point := d.exponent + digits.length
    sign ++ (if layout.lowest ≤ point - 1 ∧ point - 1 < layout.limit
      then layout.positional digits point else layout.scientific digits (point - 1))

/-- The text of a number. -/
def render (layout : NumberLayout) : Binary64 → String
  | .finite x => layout.finite x
  | .infinite negative => if negative then "-inf" else "inf"
  | .nan => "NaN"

end NumberLayout

end Deskhand
