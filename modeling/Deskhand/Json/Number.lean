import Deskhand.Value.Basic

/-!
# Numbers in JSON

A number without fraction and exponent that fits 64 bits is an integer. Of any other number the
leading digits are collected as long as they fit 64 bits, and the sum is then scaled by a rounded
power of ten; so the real number read is the nearest one only if digits and power are short.
-/

namespace Deskhand.Json

/-- The first number that 64 bits cannot hold. -/
def collectLimit : Nat := Word.count64

/-- Digits appended to a number while the result stays below the limit, and those left over. -/
def collect (n : Nat) : List Char → Nat × List Char
  | [] => (n, [])
  | d :: rest =>
    let next := 10 * n + digitValue d
    if next < collectLimit then collect next rest else (n, d :: rest)

/-- The largest power of ten that is scaled by in one step. -/
def scaleStep : Int := 308

/-- A number times a power of ten; too large a result is refused, too small a one is zero. -/
def scale (x : Binary64) (exponent : Int) : Option Binary64 :=
  if -scaleStep ≤ exponent then
    if 0 ≤ exponent then
      if exponent ≤ scaleStep then
        match x * .ofDecimal false ⟨1, exponent⟩ with
        | .infinite _ => none
        | y => some y
      else if x.isZero then some x else none
    else some (x / .ofDecimal false ⟨1, -exponent⟩)
  else if x.isZero then some x
  else scale (x / .ofDecimal false ⟨1, scaleStep⟩) (exponent + scaleStep)
termination_by (-exponent).toNat
decreasing_by simp only [scaleStep] at *; omega

/-- The first exponent that is not read; from there the number is zero or out of range. -/
def exponentLimit : Nat := 2147483648

/-- The real number with the given parts, `none` if it is out of range. -/
def real? (negative : Bool) (significand : Nat) (exponent : Int) : Option Number :=
  match scale (.ofInt significand) exponent with
  | some x => ((if negative then -x else x).toFinite?).map .real
  | none => none

/-- The exponent after its mark: whether it is negative, its digits and what follows. -/
def readExponent (cs : List Char) : Option (Bool × Nat × List Char) :=
  let (negative, rest) := splitSign cs
  let digits := rest.takeWhile Char.isDigit
  if digits = [] then none
  else some (negative, digitsValue digits, rest.dropWhile Char.isDigit)

/-- What follows the mantissa of a real number: an exponent, or nothing of it. -/
def finishReal (negative : Bool) (significand : Nat) (exponent : Int) (cs : List Char) :
    Option (Number × List Char) :=
  match cs with
  | c :: rest =>
    if c = 'e' ∨ c = 'E' then
      match readExponent rest with
      | none => none
      | some (down, e, after) =>
        if exponentLimit ≤ e then
          if significand ≠ 0 ∧ !down then none
          else (real? negative 0 0).map (·, after)
        else
          (real? negative significand (if down then exponent - e else exponent + e)).map (·, after)
    else (real? negative significand exponent).map (·, cs)
  | [] => (real? negative significand exponent).map (·, cs)

/-- The integer with the given sign and digits; one out of range is a real number. -/
def ofWhole (negative : Bool) (n : Nat) : Option Number :=
  if !negative then some (.int n)
  else if 0 < n ∧ Word.minInt ≤ -(n : Int) then some (.int (-n))
  else real? true n 0

/-- The digits in front of point and exponent: a zero alone, or digits that begin with another. -/
def wholeDigits? (cs : List Char) : Option (List Char × List Char) :=
  let digits := cs.takeWhile Char.isDigit
  let rest := cs.dropWhile Char.isDigit
  match digits with
  | [] => none
  | '0' :: _ :: _ => none
  | _ => some (digits, rest)

/-- A number and what follows it, the sign having been read. -/
def readUnsigned (negative : Bool) (cs : List Char) : Option (Number × List Char) :=
  match wholeDigits? cs with
  | none => none
  | some (digits, rest) =>
    let (significand, dropped) := collect 0 digits
    match rest with
    | '.' :: more =>
      let fraction := more.takeWhile Char.isDigit
      let after := more.dropWhile Char.isDigit
      if fraction = [] then none
      else
        let (significand, unread) := collect significand fraction
        let taken : Nat := fraction.length - unread.length
        finishReal negative significand ((dropped.length : Int) - taken) after
    | _ =>
      let isReal := match rest with
        | c :: _ => c == 'e' || c == 'E'
        | [] => false
      if isReal || !dropped.isEmpty then finishReal negative significand dropped.length rest
      else (ofWhole negative significand).map (·, rest)

/-- A number and what follows it. -/
def readNumber : List Char → Option (Number × List Char)
  | '-' :: cs => readUnsigned true cs
  | cs => readUnsigned false cs

end Deskhand.Json
