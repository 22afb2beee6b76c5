import Mathlib
import Deskhand.Expr.Function
import Deskhand.Proofs.WholeNumbers

/-!
# Arithmetic of words

Integers of 64 bits calculate exactly (`Expr.integer_arithmetic`). Sums, differences, products,
negations and magnitudes are words where the exact integer is one, and real numbers otherwise, which
are finite. Division is floored. The step that corrects a cut quotient or remainder is not checked, and
it need not be: it never meets what is no word (`Expr.floorQuotient?_eq`, `Expr.floorRest_eq`), so that
to trap there would change nothing.
-/

namespace Deskhand

/-! ## Finite results -/

namespace Binary64

/-- Finite, and no further from zero than a power of two. -/
def Within (k : Nat) (x : Binary64) : Prop :=
  ∃ f : Finite64, x = .finite f ∧ f.units ≤ Nat.pow 2 k * unitsPerOne

theorem divRoundEven_le {num den bound : Nat} (hden : 0 < den) (h : num ≤ bound * den) :
    divRoundEven num den ≤ bound := by
  have hle : num / den ≤ bound := Nat.div_le_of_le_mul (by rwa [Nat.mul_comm])
  have hexact : num / den = bound → num % den = 0 := by
    intro hbound
    have hsplit := Nat.div_add_mod num den
    rw [hbound, Nat.mul_comm] at hsplit
    omega
  unfold divRoundEven
  dsimp only
  split
  · exact hle
  · next hup =>
    have hlt : num / den < bound := by
      refine Nat.lt_of_le_of_ne hle fun hbound => hup ?_
      rw [hexact hbound]
      exact hden
    split
    · exact hlt
    · split
      · exact hle
      · exact hlt

/-- A rounded quotient has so many significant bits at a place. -/
theorem roundUnits_eq (num : Nat) {den : Nat} (hden : 0 < den) :
    ∃ n e, n ≤ 2 ^ 53 ∧ roundUnits num den = n * Nat.pow 2 e := by
  refine ⟨_, _, ?_, rfl⟩
  refine divRoundEven_le (Nat.mul_pos hden (Nat.two_pow_pos _)) ?_
  have hlog : num / den < 2 ^ ((num / den).log2 + 1) := Nat.lt_log2_self
  have hpow : 2 ^ ((num / den).log2 + 1) ≤ 2 ^ (53 + ((num / den).log2 - 52)) :=
    Nat.pow_le_pow_right Nat.two_pos (by omega)
  have hnum : num < 2 ^ (53 + ((num / den).log2 - 52)) * den :=
    (Nat.div_lt_iff_lt_mul hden).1 (Nat.lt_of_lt_of_le hlog hpow)
  rw [Nat.pow_add, Nat.mul_assoc, Nat.mul_comm _ den] at hnum
  exact Nat.le_of_lt hnum

/-- No significant bit of a rounded quotient is too many. -/
theorem grain_dvd_roundUnits (num : Nat) {den : Nat} (hden : 0 < den) :
    Nat.pow 2 ((roundUnits num den).log2 - 52) ∣ roundUnits num den := by
  obtain ⟨n, e, hn, heq⟩ := roundUnits_eq num hden
  rw [heq]
  rcases Nat.lt_or_eq_of_le hn with hlt | rfl
  · exact grain_dvd hlt e
  · -- rounded up to 54 bits, of which only the first is set
    have hone : 2 ^ 53 * Nat.pow 2 e = 1 * Nat.pow 2 (53 + e) :=
      (Nat.pow_add 2 53 e).symm.trans (Nat.one_mul _).symm
    rw [hone]
    exact grain_dvd (by norm_num) _

/-- Rounding does not go above a power of two. -/
theorem roundUnits_le {num den k : Nat} (hden : 0 < den) (h : num ≤ Nat.pow 2 k * den) :
    roundUnits num den ≤ Nat.pow 2 k := by
  have hquotient : num / den ≤ Nat.pow 2 k := Nat.div_le_of_le_mul (by rwa [Nat.mul_comm])
  have hlog : (num / den).log2 ≤ k := by
    rcases Nat.eq_zero_or_pos (num / den) with hzero | hpos
    · rw [hzero]
      exact Nat.zero_le k
    · have hlt : num / den < 2 ^ (k + 1) :=
        Nat.lt_of_le_of_lt hquotient (Nat.pow_lt_pow_right Nat.one_lt_two (Nat.lt_succ_self k))
      exact Nat.le_of_lt_succ ((Nat.log2_lt (Nat.ne_of_gt hpos)).2 hlt)
  unfold roundUnits
  dsimp only
  generalize hshift : (num / den).log2 - 52 = shift
  have hsplit : Nat.pow 2 k = Nat.pow 2 (k - shift) * Nat.pow 2 shift := by
    have hsum : k = k - shift + shift := by omega
    exact (congrArg (2 ^ ·) hsum).trans (Nat.pow_add 2 _ _)
  rw [hsplit] at h ⊢
  refine Nat.mul_le_mul_right _ (divRoundEven_le (Nat.mul_pos hden (Nat.two_pow_pos _)) ?_)
  rwa [Nat.mul_comm den, ← Nat.mul_assoc]

/-- A rounded quotient in range is a finite magnitude. -/
theorem fits_roundUnits {num den k : Nat} (hden : 0 < den) (h : num ≤ Nat.pow 2 k * den)
    (hk : k < limitExponent) : Fits (roundUnits num den) := by
  constructor
  · have hle := roundUnits_le hden h
    unfold unitsLimit
    generalize limitExponent = limit at hk
    exact Nat.lt_of_le_of_lt hle (Nat.pow_lt_pow_right Nat.one_lt_two hk)
  · exact grain_dvd_roundUnits num hden

theorem within_ofQuotient (negative : Bool) {num den k : Nat} (hden : 0 < den) (hk : k < 1024)
    (h : num ≤ Nat.pow 2 k * unitsPerOne * den) : Within k (ofQuotient negative num den) := by
  obtain ⟨e, he, hlimit⟩ := exists_unit
  have hpow : Nat.pow 2 k * unitsPerOne = Nat.pow 2 (k + e) := by
    rw [he]
    exact (Nat.pow_add 2 k e).symm
  rw [hpow] at h
  have hfits : Fits (roundUnits num den) := fits_roundUnits hden h (by omega)
  have hle := roundUnits_le hden h
  rw [← hpow] at hle
  unfold ofQuotient ofUnits
  rw [dif_pos hfits]
  exact ⟨_, rfl, hle⟩

theorem within_ofInt {n : Int} {k : Nat} (hk : k < 1024) (h : n.natAbs ≤ 2 ^ k) :
    Within k (ofInt n) := by
  refine within_ofQuotient _ Nat.one_pos hk ?_
  rw [Nat.mul_one]
  exact Nat.mul_le_mul_right _ h

variable {x y : Binary64} {j k : Nat}

theorem Within.neg (h : Within k x) : Within k (-x) := by
  obtain ⟨f, rfl, hf⟩ := h
  exact ⟨f.neg, rfl, hf⟩

theorem Within.abs (h : Within k x) : Within k x.abs := by
  obtain ⟨f, rfl, hf⟩ := h
  exact ⟨f.abs, rfl, hf⟩

theorem Within.add (hx : Within k x) (hy : Within k y) (hk : k + 1 < 1024) :
    Within (k + 1) (x + y) := by
  obtain ⟨f, rfl, hf⟩ := hx
  obtain ⟨g, rfl, hg⟩ := hy
  change Within (k + 1) (add _ _)
  unfold add
  dsimp only
  split
  · exact ⟨⟨_, 0, fits_zero⟩, dif_pos fits_zero, Nat.zero_le _⟩
  · refine within_ofQuotient _ Nat.one_pos hk ?_
    have hsum := Int.natAbs_add_le f.value g.value
    rw [f.natAbs_value, g.natAbs_value] at hsum
    have hpow : Nat.pow 2 (k + 1) * unitsPerOne = 2 * (Nat.pow 2 k * unitsPerOne) := by
      rw [← Nat.mul_assoc, Nat.mul_comm 2]
      rfl
    rw [Nat.mul_one, hpow]
    omega

theorem Within.sub (hx : Within k x) (hy : Within k y) (hk : k + 1 < 1024) :
    Within (k + 1) (x - y) := hx.add hy.neg hk

theorem Within.mul (hx : Within j x) (hy : Within k y) (hk : j + k < 1024) :
    Within (j + k) (x * y) := by
  obtain ⟨f, rfl, hf⟩ := hx
  obtain ⟨g, rfl, hg⟩ := hy
  change Within (j + k) (mul _ _)
  unfold mul
  dsimp only
  refine within_ofQuotient _ unitsPerOne_pos hk ?_
  calc f.units * g.units
      ≤ Nat.pow 2 j * unitsPerOne * (Nat.pow 2 k * unitsPerOne) := Nat.mul_le_mul hf hg
    _ = Nat.pow 2 j * Nat.pow 2 k * unitsPerOne * unitsPerOne := by ring
    _ = Nat.pow 2 (j + k) * unitsPerOne * unitsPerOne := by
      rw [show Nat.pow 2 j * Nat.pow 2 k = Nat.pow 2 (j + k) from (Nat.pow_add 2 j k).symm]

theorem whole_quotient_minInt : Whole (2 ^ 63) (ofInt Word.minInt / ofInt (-1)).floor :=
  ⟨⟨false, Nat.pow 2 63 * unitsPerOne, by decide +kernel⟩, by decide +kernel, by decide +kernel⟩

end Binary64

namespace Expr

open Value (IsInt64 quantity?)

variable {a b : Int}

/-! ## Floored division -/

theorem signsDiffer_iff : signsDiffer a b = true ↔ (a < 0 ↔ 0 ≤ b) := by
  unfold signsDiffer
  rw [bne_iff_ne, Ne, decide_eq_decide]
  omega

theorem fdiv_eq_of_tdiv (hb : b ≠ 0) :
    a.fdiv b = if a.tmod b ≠ 0 ∧ signsDiffer a b then a.tdiv b - 1 else a.tdiv b := by
  simp only [signsDiffer_iff, Int.fdiv_eq_tdiv, Int.dvd_iff_tmod_eq_zero]
  by_cases hzero : a.tmod b = 0
  · rw [if_pos hzero, if_neg fun h => h.1 hzero, Int.sub_zero]
  · have hpos : 0 < b → b.sign = 1 := Int.sign_eq_one_of_pos
    have hneg : b < 0 → b.sign = -1 := Int.sign_eq_neg_one_of_neg
    rw [if_neg hzero]
    split <;> split <;> split <;> omega

theorem tmod_neg_iff (h : a.tmod b ≠ 0) : a.tmod b < 0 ↔ a < 0 := by
  have hdvd : ¬b ∣ a := Int.dvd_iff_tmod_eq_zero.not.2 h
  have hsign := Int.sign_tmod a b
  rw [if_neg hdvd] at hsign
  rw [← Int.sign_eq_neg_one_iff_neg, hsign, Int.sign_eq_neg_one_iff_neg]

theorem fmod_eq_of_tmod :
    a.fmod b = if a.tmod b ≠ 0 ∧ signsDiffer (a.tmod b) b then a.tmod b + b else a.tmod b := by
  simp only [signsDiffer_iff, Int.fmod_eq_tmod, Int.dvd_iff_tmod_eq_zero]
  by_cases hzero : a.tmod b = 0
  · rw [if_pos hzero, if_neg fun h => h.1 hzero, Int.add_zero]
  · have hsign := tmod_neg_iff hzero
    rw [if_neg hzero]
    split <;> split <;> split <;> omega

/-- A cut quotient has at most half of the dividend unless the divisor is one of 1 and -1. -/
theorem natAbs_tdiv_le (hb : 2 ≤ b.natAbs) : (a.tdiv b).natAbs ≤ a.natAbs / 2 := by
  rw [Int.natAbs_tdiv]
  exact Nat.div_le_div_left hb Nat.two_pos

theorem isInt64_of_half (ha : IsInt64 a) {q : Int} (hq : q.natAbs ≤ a.natAbs / 2) :
    IsInt64 q ∧ IsInt64 (q - 1) := by
  unfold IsInt64 Word.minInt Word.maxInt at *
  omega

theorem isInt64_tdiv (ha : IsInt64 a) (hb : b ≠ 0) (hmin : ¬(a = Word.minInt ∧ b = -1)) :
    IsInt64 (a.tdiv b) := by
  have hcases : b = 1 ∨ b = -1 ∨ 2 ≤ b.natAbs := by omega
  rcases hcases with rfl | rfl | htwo
  · rwa [Int.tdiv_one]
  · rw [Int.tdiv_neg, Int.tdiv_one]
    unfold IsInt64 Word.minInt Word.maxInt at *
    omega
  · exact (isInt64_of_half ha (natAbs_tdiv_le htwo)).1

/-- The correction does not leave the words: something is left over only by a divisor other than 1
and -1, and then the cut quotient has a bit to spare. -/
theorem isInt64_tdiv_sub_one (ha : IsInt64 a) (hb : b ≠ 0) (hrest : a.tmod b ≠ 0) :
    IsInt64 (a.tdiv b - 1) := by
  have htwo : 2 ≤ b.natAbs := by
    by_contra hlt
    have hone : b.natAbs = 1 := by omega
    refine hrest (Int.natAbs_eq_zero.1 ?_)
    rw [Int.natAbs_tmod, hone, Nat.mod_one]
  exact (isInt64_of_half ha (natAbs_tdiv_le htwo)).2

theorem natAbs_tmod_lt (hb : b ≠ 0) : (a.tmod b).natAbs < b.natAbs := by
  rw [Int.natAbs_tmod]
  exact Nat.mod_lt _ (Int.natAbs_pos.2 hb)

theorem isInt64_tmod_add (hb : IsInt64 b) (hb0 : b ≠ 0) (hdiffer : signsDiffer (a.tmod b) b) :
    IsInt64 (a.tmod b + b) := by
  have hlt := natAbs_tmod_lt (a := a) hb0
  rw [signsDiffer_iff] at hdiffer
  unfold IsInt64 Word.minInt Word.maxInt at *
  omega

section Steps

variable {m : Type → Type} [Monad m] {plain : Int → m Int}
  (hplain : ∀ n, IsInt64 n → plain n = pure n)

include hplain

/-- Whatever the unchecked step makes of what is no word, the quotient is the floor of the exact
one. -/
theorem floorQuotient?_eq [LawfulMonad m] (ha : IsInt64 a) (hb : b ≠ 0) :
    floorQuotient? plain a b =
      pure (if a = Word.minInt ∧ b = -1 then none else some (a.fdiv b)) := by
  unfold floorQuotient? cutQuotient?
  rw [fdiv_eq_of_tdiv hb]
  by_cases hmin : a = Word.minInt ∧ b = -1
  · obtain ⟨rfl, rfl⟩ := hmin
    rw [if_neg (by decide), if_pos ⟨rfl, rfl⟩]
  · rw [if_pos ⟨hb, isInt64_tdiv ha hb hmin⟩, if_neg hmin]
    dsimp only
    split
    · next hrest => rw [hplain _ (isInt64_tdiv_sub_one ha hb hrest.1), map_pure]
    · rfl

theorem floorRest_eq (hb : IsInt64 b) (hb0 : b ≠ 0) : floorRest plain a b = pure (a.fmod b) := by
  unfold floorRest
  rw [fmod_eq_of_tmod]
  dsimp only
  split
  · next hrest => exact hplain _ (isInt64_tmod_add hb hb0 hrest.2)
  · rfl

end Steps

/-- The quotient of integers, rounded down. -/
theorem fdiv_eq_floor : a.fdiv b = ⌊(a : ℚ) / b⌋ := by
  have hnonneg : ∀ (n : Int) (d : Nat), n.fdiv d = ⌊(n : ℚ) / (d : Int)⌋ := fun n d => by
    rw [Int.fdiv_eq_ediv_of_nonneg n (Int.natCast_nonneg d), Int.cast_natCast,
      Rat.floor_intCast_div_natCast]
  obtain ⟨d, rfl | rfl⟩ := b.eq_nat_or_neg
  · exact hnonneg a d
  · have hneg := hnonneg (-a) d
    rw [← Int.neg_fdiv_neg, Int.neg_neg, Int.cast_neg, div_neg, ← neg_div, ← Int.cast_neg]
    exact hneg

/-- What the floor of a quotient leaves over has the sign of the divisor. -/
theorem fmod_bounds (hb : b ≠ 0) :
    |a.fmod b| < |b| ∧ (a.fmod b = 0 ∨ (a.fmod b).sign = b.sign) := by
  rcases Int.lt_or_gt_of_ne hb with hneg | hpos
  · have hflip := Int.neg_fmod_neg a b
    have hlow := Int.fmod_nonneg_of_pos (-a) (Int.neg_pos_of_neg hneg)
    have hhigh := Int.fmod_lt_of_pos (-a) (Int.neg_pos_of_neg hneg)
    rw [hflip] at hlow hhigh
    constructor
    · rw [abs_of_nonpos (by omega), abs_of_neg hneg]
      exact hhigh
    · rcases Int.lt_or_eq_of_le (Int.nonpos_of_neg_nonneg hlow) with hlt | hzero
      · exact .inr ((Int.sign_eq_neg_one_of_neg hlt).trans (Int.sign_eq_neg_one_of_neg hneg).symm)
      · exact .inl hzero
  · have hlow := Int.fmod_nonneg_of_pos a hpos
    constructor
    · rw [abs_of_nonneg hlow, abs_of_pos hpos]
      exact Int.fmod_lt_of_pos a hpos
    · rcases Int.lt_or_eq_of_le hlow with hlt | hzero
      · exact .inr ((Int.sign_eq_one_of_pos hlt).trans (Int.sign_eq_one_of_pos hpos).symm)
      · exact .inl hzero.symm

/-! ## Steps that are not checked -/

/-- An exact result that is a word, and nothing for any other one. -/
def trapped (n : Int) : Option Int := if IsInt64 n then some n else none

theorem wrapped_word {n : Int} (hn : IsInt64 n) : wrapped n = pure n := by
  unfold IsInt64 Word.minInt Word.maxInt at hn
  refine congrArg (pure (f := Id)) ?_
  exact Int.bmod_eq_of_le (by unfold Word.count64; omega) (by unfold Word.count64; omega)

theorem trapped_word {n : Int} (hn : IsInt64 n) : trapped n = pure n := if_pos hn

/-! ## Operations -/

/-- What a value is among the integers: a word is itself, and a truth value is one or zero. -/
inductive CountsAs : Value → Int → Prop
  | word {a : Int} (ha : IsInt64 a) : CountsAs (.int a) a
  | truth (b : Bool) : CountsAs (.bool b) (if b then 1 else 0)

/-- The result is the exact integer if that is a word, else a real number, which is finite. -/
def ExactOrReal (n : Int) (x : Binary64) (result : Except ExprError Value) : Prop :=
  (IsInt64 n → result = .ok (.int n)) ∧
    (¬IsInt64 n → ∃ f, x = .finite f ∧ result = .ok (.number (.real f)))

section Operations

variable {l r : Value}

theorem CountsAs.quantity? (h : CountsAs l a) : quantity? l = some (.int a) := by
  cases h with
  | word ha => exact if_pos ha
  | truth b => rfl

theorem CountsAs.isInt64 (h : CountsAs l a) : IsInt64 a := by
  cases h with
  | word ha => exact ha
  | truth b => cases b <;> decide

theorem operate_of_countsAs (hl : CountsAs l a) (hr : CountsAs r b) (op : BinaryOp) :
    operate l op r = (numeric op (.int a) (.int b)).map Value.Quantity.toValue := by
  unfold operate
  rw [hl.quantity?, hr.quantity?]

theorem exactOrReal {n : Int} {x : Binary64} {k : Nat} (hx : x.Within k) :
    ExactOrReal n x (.ok (exactOr n x).toValue) := by
  obtain ⟨f, rfl, -⟩ := hx
  unfold exactOr
  constructor
  · intro hn
    rw [if_pos hn]
    rfl
  · intro hn
    rw [if_neg hn]
    exact ⟨f, rfl, rfl⟩

theorem within_word (ha : IsInt64 a) : (Binary64.ofInt a).Within 63 := by
  refine Binary64.within_ofInt (by norm_num) ?_
  unfold IsInt64 Word.minInt Word.maxInt at ha
  omega

theorem floorDivide_words (ha : IsInt64 a) (hb : b ≠ 0) (hmin : ¬(a = Word.minInt ∧ b = -1)) :
    floorDivide (.int a) (.int b) = .ok (.int ⌊(a : ℚ) / b⌋) := by
  unfold floorDivide
  dsimp only
  rw [if_neg hb, floorQuotient?_eq (fun _ => wrapped_word) ha hb, if_neg hmin, fdiv_eq_floor]
  rfl

/-- The one quotient of words that is no word. -/
theorem floorDivide_minInt : ∃ f : Finite64,
    floorDivide (.int Word.minInt) (.int (-1)) = .ok (.real (.finite f)) ∧
      Binary64.Whole (2 ^ 63) (.finite f) := by
  obtain ⟨f, hf, hvalue⟩ := Binary64.whole_quotient_minInt
  refine ⟨f, ?_, f, rfl, hvalue⟩
  rw [← hf]
  rfl

theorem floorRemainder_words (hb : IsInt64 b) (hb0 : b ≠ 0) :
    floorRemainder (.int a) (.int b) = .ok (.int (a.fmod b)) := by
  unfold floorRemainder
  dsimp only
  rw [if_neg hb0, floorRest_eq (fun _ => wrapped_word) hb hb0]
  rfl

theorem numeric_zero {op : BinaryOp} (hop : op ∈ [BinaryOp.div, .floorDiv, .modulo]) :
    numeric op (.int a) (.int 0) = .error .divisionByZero := by
  have hzero : (Value.Quantity.int 0).toBinary64.isZero = true := by decide +kernel
  simp only [List.mem_cons, List.not_mem_nil, or_false] at hop
  rcases hop with rfl | rfl | rfl
  · unfold numeric divide
    exact if_pos hzero
  · rfl
  · rfl

/-- The laws of integer arithmetic: sums, differences, products, negations and magnitudes are exact or
real, division is floored with the one quotient that is no word made real, and there is none by
zero. What is not checked on the way never leaves the words. -/
theorem integer_arithmetic (hl : CountsAs l a) (hr : CountsAs r b) :
    (ExactOrReal (a + b) (.ofInt a + .ofInt b) (operate l .add r) ∧
      ExactOrReal (a - b) (.ofInt a - .ofInt b) (operate l .sub r) ∧
      ExactOrReal (a * b) (.ofInt a * .ofInt b) (operate l .mul r)) ∧
    (b ≠ 0 →
      (¬(a = Word.minInt ∧ b = -1) →
        operate l .floorDiv r = .ok (.int ⌊(a : ℚ) / b⌋)) ∧
      (a = Word.minInt ∧ b = -1 →
        (∃ f : Finite64, operate l .floorDiv r = .ok (.number (.real f)) ∧
          Binary64.Whole (2 ^ 63) (.finite f)) ∧
        operate l .modulo r = .ok (.int 0)) ∧
      (∃ rest, operate l .modulo r = .ok (.int rest) ∧ a = b * ⌊(a : ℚ) / b⌋ + rest ∧
        |rest| < |b| ∧ (rest = 0 ∨ rest.sign = b.sign)) ∧
      floorQuotient? trapped a b = some (floorQuotient? wrapped a b).run ∧
      floorRest trapped a b = some (floorRest wrapped a b).run) ∧
    (b = 0 → ∀ op ∈ [BinaryOp.div, .floorDiv, .modulo],
      operate l op r = .error .divisionByZero) ∧
    ExactOrReal (-a) (-.ofInt a) (negate l) ∧
    ExactOrReal |a| (Binary64.ofInt a).abs (callFunction "abs" [l]) := by
  have ha := within_word hl.isInt64
  have hb := within_word hr.isInt64
  simp only [operate_of_countsAs hl hr]
  refine ⟨⟨?_, ?_, ?_⟩, fun hb0 => ⟨fun hmin => ?_, ?_, ?_, ?_, ?_⟩, ?_, ?_, ?_⟩
  · exact exactOrReal (ha.add hb (by norm_num))
  · exact exactOrReal (ha.sub hb (by norm_num))
  · exact exactOrReal (ha.mul hb (by norm_num))
  · exact congrArg (Except.map Value.Quantity.toValue) (floorDivide_words hl.isInt64 hb0 hmin)
  · rintro ⟨rfl, rfl⟩
    obtain ⟨f, hf, hvalue⟩ := floorDivide_minInt
    refine ⟨⟨f, congrArg (Except.map Value.Quantity.toValue) hf, hvalue⟩, ?_⟩
    exact congrArg (Except.map Value.Quantity.toValue) (floorRemainder_words hr.isInt64 hb0)
  · refine ⟨a.fmod b, ?_, ?_, fmod_bounds hb0⟩
    · exact congrArg (Except.map Value.Quantity.toValue) (floorRemainder_words hr.isInt64 hb0)
    · rw [← fdiv_eq_floor]
      exact (Int.mul_fdiv_add_fmod a b).symm
  · rw [floorQuotient?_eq (fun _ => trapped_word) hl.isInt64 hb0,
      floorQuotient?_eq (fun _ => wrapped_word) hl.isInt64 hb0]
    rfl
  · rw [floorRest_eq (fun _ => trapped_word) hr.isInt64 hb0,
      floorRest_eq (fun _ => wrapped_word) hr.isInt64 hb0]
    rfl
  · rintro rfl op hop
    exact congrArg (Except.map Value.Quantity.toValue) (numeric_zero hop)
  · unfold negate
    rw [hl.quantity?]
    exact exactOrReal ha.neg
  · change ExactOrReal _ _ (absoluteValue l)
    unfold absoluteValue
    rw [hl.quantity?]
    dsimp only
    rw [Int.natCast_natAbs]
    exact exactOrReal ha.abs

/-- At the least word a difference and a quotient leave the words, and what is left over does not. -/
theorem integer_arithmetic_least :
    CountsAs (.int Word.minInt) Word.minInt ∧ CountsAs (.bool true) 1 ∧ CountsAs (.int (-1)) (-1) ∧
    (∃ f, operate (.int Word.minInt) .sub (.bool true) = .ok (.number (.real f))) ∧
    (∃ f, operate (.int Word.minInt) .floorDiv (.int (-1)) = .ok (.number (.real f))) ∧
    operate (.int Word.minInt) .modulo (.int (-1)) = .ok (.int 0) := by
  have hleast : CountsAs (.int Word.minInt) Word.minInt := .word (by decide)
  have htrue : CountsAs (.bool true) 1 := .truth true
  have hminus : CountsAs (.int (-1)) (-1) := .word (by decide)
  refine ⟨hleast, htrue, hminus, ?_⟩
  obtain ⟨⟨-, hdifference, -⟩, -⟩ := integer_arithmetic hleast htrue
  obtain ⟨f, -, hf⟩ := hdifference.2 (by decide)
  obtain ⟨-, hdivision, -⟩ := integer_arithmetic hleast hminus
  obtain ⟨⟨g, hg, -⟩, hrest⟩ := (hdivision (by decide)).2.1 ⟨rfl, rfl⟩
  exact ⟨⟨f, hf⟩, ⟨g, hg⟩, hrest⟩

end Operations

end Expr

end Deskhand
