import Mathlib
import Deskhand.Number.Numeral
import Deskhand.Proofs.Fallible
import Deskhand.Value.Basic

/-!
# Whole numbers

An integer below 2⁵³ is a binary64 number of its own, so comparing two of them is comparing integers
(`Binary64.lt_of_whole`), and to cut it to an integer gives the integer back
(`Binary64.toInt64_of_whole`). A larger one may be rounded, but not below 2⁵³
(`Binary64.toInt64_ofInt_far`). A text of digits is read as the number of the integer that it denotes
(`readReal?_of_readInt64?`).
-/

namespace Deskhand

/-! ## Rounding -/

theorem units_lt {n e limit : Nat} (hn : n < 2 ^ 53) (h : 53 + e ≤ limit) :
    n * Nat.pow 2 e < Nat.pow 2 limit := by
  have hlt : n * 2 ^ e < 2 ^ (53 + e) := by
    rw [Nat.pow_add]
    exact Nat.mul_lt_mul_of_pos_right hn (Nat.two_pow_pos e)
  exact Nat.lt_of_lt_of_le hlt (Nat.pow_le_pow_right Nat.two_pos h)

/-- A count of whole numbers has as many zeros at its end as it has too many bits. -/
theorem grain_dvd {n : Nat} (hn : n < 2 ^ 53) (e : Nat) :
    Nat.pow 2 ((n * Nat.pow 2 e).log2 - 52) ∣ n * Nat.pow 2 e := by
  rcases Nat.eq_zero_or_pos n with rfl | hpos
  · rw [Nat.zero_mul]
    exact Nat.dvd_zero _
  · have hne : n * Nat.pow 2 e ≠ 0 :=
      Nat.mul_ne_zero (Nat.ne_of_gt hpos) (Nat.ne_of_gt (Nat.two_pow_pos e))
    have hlog : (n * Nat.pow 2 e).log2 < 53 + e := (Nat.log2_lt hne).2 (units_lt hn (Nat.le_refl _))
    have hle : (n * Nat.pow 2 e).log2 - 52 ≤ e := by omega
    exact Nat.dvd_mul_left_of_dvd (Nat.pow_dvd_pow 2 hle) n

theorem divRoundEven_of_dvd {num den : Nat} (hden : 0 < den) (h : den ∣ num) :
    divRoundEven num den = num / den := by
  unfold divRoundEven
  dsimp only
  rw [Nat.mod_eq_zero_of_dvd h, if_pos hden]

namespace Binary64

/-- The number is an integer, exactly. -/
def Whole (n : Int) (x : Binary64) : Prop :=
  ∃ f : Finite64, x = .finite f ∧ f.value = n * unitsPerOne

theorem exists_unit : ∃ e, unitsPerOne = Nat.pow 2 e ∧ 1024 + e = limitExponent := by
  unfold unitsPerOne
  exact ⟨_, rfl, by decide⟩

theorem unitsPerOne_pos : 0 < unitsPerOne := by
  obtain ⟨e, he, -⟩ := exists_unit
  rw [he]
  exact Nat.two_pow_pos e

theorem whole_zero (negative : Bool) : Whole 0 (.ofUnits negative 0) := by
  refine ⟨⟨negative, 0, fits_zero⟩, dif_pos fits_zero, ?_⟩
  rw [Int.zero_mul]
  cases negative <;> rfl

/-- Nothing is rounded below 2⁵³. -/
theorem whole_ofQuotient_of_sign (negative : Bool) {n : Nat} (hn : n < 2 ^ 53) :
    Whole (if negative then -n else n) (.ofQuotient negative (n * unitsPerOne) 1) := by
  obtain ⟨e, he, hlimit⟩ := exists_unit
  have hfits : Fits (n * unitsPerOne) := by
    rw [he]
    unfold Fits unitsLimit
    exact ⟨units_lt hn (by omega), grain_dvd hn e⟩
  have hround : roundUnits (n * unitsPerOne) 1 = n * unitsPerOne := by
    unfold roundUnits
    dsimp only
    have hgrain : 0 < Nat.pow 2 ((n * unitsPerOne).log2 - 52) := Nat.two_pow_pos _
    rw [Nat.div_one, Nat.one_mul, divRoundEven_of_dvd hgrain hfits.2, Nat.div_mul_cancel hfits.2]
  refine ⟨⟨negative, n * unitsPerOne, hfits⟩, ?_, ?_⟩
  · unfold ofQuotient ofUnits
    rw [hround, dif_pos hfits]
  · cases negative with
    | false =>
      rw [Finite64.value, if_neg Bool.false_ne_true, if_neg Bool.false_ne_true]
      exact Int.natCast_mul n unitsPerOne
    | true =>
      rw [Finite64.value, if_pos rfl, if_pos rfl, Int.neg_mul]
      exact congrArg Neg.neg (Int.natCast_mul n unitsPerOne)

theorem whole_ofQuotient {n : Nat} (hn : n < 2 ^ 53) :
    Whole n (.ofQuotient false (n * unitsPerOne) 1) := by
  have hwhole := whole_ofQuotient_of_sign false hn
  rwa [if_neg Bool.false_ne_true] at hwhole

theorem whole_ofInt_of_natAbs {n : Int} (hn : n.natAbs < 2 ^ 53) : Whole n (.ofInt n) := by
  have hwhole := whole_ofQuotient_of_sign (decide (n < 0)) hn
  have hvalue : (if decide (n < 0) then -(n.natAbs : Int) else n.natAbs) = n := by
    split
    · next hneg => exact Int.neg_eq_comm.1 (Int.ofNat_natAbs_of_nonpos (by simp at hneg; omega)).symm
    · next hpos => exact Int.natAbs_of_nonneg (by simpa using hpos)
  rwa [hvalue] at hwhole

theorem whole_ofInt {n : Nat} (hn : n < 2 ^ 53) : Whole n (.ofInt n) :=
  whole_ofInt_of_natAbs (n := n) (by rwa [Int.natAbs_natCast])

/-- Exact integers are ordered as integers. -/
theorem lt_of_whole {i j : Int} {x y : Binary64} (hx : Whole i x) (hy : Whole j y) :
    x.lt y = decide (i < j) := by
  obtain ⟨f, rfl, hf⟩ := hx
  obtain ⟨g, rfl, hg⟩ := hy
  have hunit : (0 : Int) < unitsPerOne := Int.natCast_pos.2 unitsPerOne_pos
  have horder : compare f.value g.value = .lt ↔ i < j := by
    rw [Std.compare_eq_lt, hf, hg]
    exact Int.mul_lt_mul_right hunit
  change (some (compare f.value g.value) == some Ordering.lt) = _
  rw [Bool.eq_iff_iff, beq_iff_eq, decide_eq_true_iff, Option.some_inj]
  exact horder

/-! ## Cutting to integers -/

theorem toInt64_finite (f : Finite64) :
    (finite f).toInt64 = Max.max Word.minInt (Min.min Word.maxInt f.truncate) := rfl

theorem toInt64_of_whole {n : Int} {x : Binary64} (h : Whole n x) (hn : Value.IsInt64 n) :
    x.toInt64 = n := by
  obtain ⟨f, rfl, hf⟩ := h
  have hunit : (unitsPerOne : Int) ≠ 0 := Int.natCast_ne_zero.2 (Nat.ne_of_gt unitsPerOne_pos)
  have htruncate : f.truncate = n := by
    unfold Finite64.value at hf
    unfold Finite64.truncate
    dsimp only
    rw [Int.natCast_ediv]
    split at hf
    · next hneg =>
      rw [if_pos hneg, ← Int.neg_eq_comm.1 hf, ← Int.neg_mul, Int.mul_ediv_cancel _ hunit, Int.neg_neg]
    · next hpos => rw [if_neg hpos, hf, Int.mul_ediv_cancel _ hunit]
  rw [toInt64_finite, htruncate, Int.min_eq_right hn.2, Int.max_eq_right hn.1]

theorem isInt64_of_natAbs {n : Int} (h : n.natAbs < 2 ^ 53) : Value.IsInt64 n := by
  unfold Value.IsInt64 Word.minInt Word.maxInt
  omega

theorem le_divRoundEven (num den : Nat) : num / den ≤ divRoundEven num den := by
  unfold divRoundEven
  dsimp only
  split
  · exact Nat.le_refl _
  · split
    · exact Nat.le_succ _
    · split
      · exact Nat.le_refl _
      · exact Nat.le_succ _

/-- Rounding does not go below a power of two. -/
theorem le_roundUnits {num den e : Nat} (hden : 0 < den) (h : Nat.pow 2 e * den ≤ num) :
    Nat.pow 2 e ≤ roundUnits num den := by
  have hquotient : Nat.pow 2 e ≤ num / den := (Nat.le_div_iff_mul_le hden).2 h
  have hround := le_divRoundEven num (den * Nat.pow 2 ((num / den).log2 - 52))
  rw [← Nat.div_div_eq_div_mul] at hround
  unfold roundUnits
  dsimp only
  generalize divRoundEven num _ = rounded at hround ⊢
  generalize num / den = n at hquotient hround ⊢
  have hpos : n ≠ 0 := Nat.ne_of_gt (Nat.lt_of_lt_of_le (Nat.two_pow_pos e) hquotient)
  have hlog : e ≤ n.log2 := (Nat.le_log2 hpos).2 hquotient
  have hpow : Nat.pow 2 e ≤ Nat.pow 2 n.log2 := Nat.pow_le_pow_right Nat.two_pos hlog
  have hdvd : Nat.pow 2 (n.log2 - 52) ∣ Nat.pow 2 n.log2 := Nat.pow_dvd_pow 2 (Nat.sub_le _ _)
  generalize Nat.pow 2 (n.log2 - 52) = grain at hdvd hround ⊢
  calc Nat.pow 2 e ≤ Nat.pow 2 n.log2 := hpow
    _ = Nat.pow 2 n.log2 / grain * grain := (Nat.div_mul_cancel hdvd).symm
    _ ≤ n / grain * grain := Nat.mul_le_mul_right _ (Nat.div_le_div_right (Nat.log2_self_le hpos))
    _ ≤ rounded * grain := Nat.mul_le_mul_right _ hround

/-- An integer of more than 53 bits may be rounded, but not to fewer bits. -/
theorem toInt64_ofInt_far {n : Int} (h : 2 ^ 53 ≤ n.natAbs) :
    (0 < n → 2 ^ 53 ≤ (ofInt n).toInt64) ∧ (n < 0 → (ofInt n).toInt64 ≤ -2 ^ 53) := by
  obtain ⟨e, he, -⟩ := exists_unit
  have hunits : Nat.pow 2 (53 + e) ≤ roundUnits (n.natAbs * unitsPerOne) 1 := by
    refine le_roundUnits Nat.one_pos ?_
    rw [Nat.mul_one, he]
    change 2 ^ (53 + e) ≤ n.natAbs * 2 ^ e
    rw [Nat.pow_add]
    exact Nat.mul_le_mul_right _ h
  have hwhole : 2 ^ 53 ≤ roundUnits (n.natAbs * unitsPerOne) 1 / unitsPerOne := by
    rw [Nat.le_div_iff_mul_le unitsPerOne_pos]
    refine Nat.le_trans (Nat.le_of_eq ?_) hunits
    rw [he]
    exact (Nat.pow_add 2 53 e).symm
  unfold ofInt ofQuotient ofUnits
  generalize roundUnits (n.natAbs * unitsPerOne) 1 = units at hwhole
  have hlimits : Word.minInt ≤ -2 ^ 53 ∧ (2 ^ 53 : Int) ≤ Word.maxInt := by decide
  split
  · next hfits =>
    rw [toInt64_finite]
    unfold Finite64.truncate
    dsimp only
    constructor
    · intro hpos
      rw [if_neg (by simp; omega)]
      omega
    · intro hneg
      rw [if_pos (decide_eq_true hneg)]
      omega
  · constructor
    · intro hpos
      rw [decide_eq_false (by omega)]
      exact hlimits.2
    · intro hneg
      rw [decide_eq_true hneg]
      exact hlimits.1

end Binary64

/-! ## Reading digits -/

theorem readDecimal?_digits {cs : List Char} {k : Nat} (h : readDigits? cs = some k) :
    readDecimal? cs = some ⟨k, 0⟩ := by
  unfold readDigits? at h
  split at h
  · next hcs =>
    cases h
    obtain ⟨hne, hall⟩ := hcs
    have htake : cs.takeWhile Char.isDigit = cs :=
      List.takeWhile_eq_self_iff.2 (List.all_eq_true.1 hall)
    have hdrop : cs.dropWhile Char.isDigit = [] :=
      List.dropWhile_eq_nil_iff.2 (List.all_eq_true.1 hall)
    unfold readDecimal?
    dsimp only
    rw [htake, hdrop]
    dsimp only
    rw [if_neg (fun hnil => hne hnil.1), List.append_nil]
    rfl
  · cases h

theorem toLower_of_isDigit {c : Char} (h : c.isDigit = true) : c.toLower = c := by
  refine dif_neg fun hupper => ?_
  simp only [Char.isDigit, Bool.and_eq_true, decide_eq_true_eq] at h
  exact absurd (UInt32.le_trans hupper.1 h.2) (by decide)

/-- What begins with a digit is no word, in letters of any case. -/
theorem map_toLower_ne {cs : List Char} {k : Nat} (h : readDigits? cs = some k) {c : Char}
    {word : List Char} (hc : c.isDigit = false) : cs.map Char.toLower ≠ c :: word := by
  intro heq
  unfold readDigits? at h
  split at h
  · next hcs =>
    obtain ⟨d, rest, rfl, hd, -⟩ := List.map_eq_cons_iff.1 heq
    have hdigit : d.isDigit = true := List.all_eq_true.1 hcs.2 d List.mem_cons_self
    rw [← hd, toLower_of_isDigit hdigit, hdigit] at hc
    cases hc
  · cases h

/-- The text of an integer is read as the number of that integer. -/
theorem readReal?_of_readInt64? {s : String} {n : Nat} (h : readInt64? s = some (n : Int))
    (hn : n < 2 ^ 53) : ∃ x, readReal? s = some x ∧ Binary64.Whole n x := by
  unfold readInt64? at h
  unfold readReal?
  generalize splitSign s.toList = sign at h ⊢
  obtain ⟨negative, cs⟩ := sign
  dsimp only at h ⊢
  cases hdigits : readDigits? cs with
  | none =>
    rw [hdigits] at h
    cases h
  | some k =>
    rw [hdigits] at h
    dsimp only at h
    have hvalue : (if negative then -(k : Int) else k) = n := by
      by_cases hrange : Word.minInt ≤ (if negative then -(k : Int) else k) ∧
          (if negative then -(k : Int) else k) ≤ Word.maxInt
      · rw [if_pos hrange] at h
        exact Option.some.inj h
      · rw [if_neg hrange] at h
        cases h
    have hinf : ¬(cs.map Char.toLower = "inf".toList ∨ cs.map Char.toLower = "infinity".toList) :=
      fun hor => hor.elim (map_toLower_ne hdigits rfl) (map_toLower_ne hdigits rfl)
    have hnan : cs.map Char.toLower ≠ "nan".toList := map_toLower_ne hdigits rfl
    rw [if_neg hinf, if_neg hnan, readDecimal?_digits hdigits]
    refine ⟨_, rfl, ?_⟩
    unfold Binary64.ofDecimal
    dsimp only
    by_cases hzero : k = 0
    · have hn0 : n = 0 := by
        split at hvalue <;> omega
      rw [if_pos hzero, hn0]
      exact Binary64.whole_zero negative
    · have hpositive : negative = false ∧ k = n := by
        split at hvalue
        · omega
        · exact ⟨Bool.eq_false_iff.2 ‹_›, by omega⟩
      obtain ⟨rfl, rfl⟩ := hpositive
      rw [if_neg hzero, if_neg (by omega), if_neg (by omega), if_pos (Int.le_refl 0)]
      have hpow : k * Nat.pow 10 (0 : Int).toNat * unitsPerOne = k * unitsPerOne :=
        congrArg (· * unitsPerOne) (Nat.mul_one k)
      rw [hpow]
      exact Binary64.whole_ofQuotient hn

end Deskhand
