import Deskhand.Proofs.Identifiers
import Deskhand.Proofs.WordArithmetic

/-!
# Numerals

The grammar of the texts that are numbers, and the readers as exactly that grammar
(`readInt64?_eq_some`, `readReal?_eq_some`). A decimal has a finite binary64 number nearest to it
exactly if it is below the middle between the largest of these and the first power of two behind it
(`Binary64.isFinite_ofDecimal`).
-/

namespace Deskhand

/-! ## The grammar -/

/-- The sign that a numeral may begin with, and whether it is negative. -/
inductive SignText : List Char → Bool → Prop
  | none : SignText [] false
  | plus : SignText ['+'] false
  | minus : SignText ['-'] true

/-- Nothing but decimal digits. -/
def AllDigits (cs : List Char) : Prop := ∀ c ∈ cs, c.isDigit = true

instance (cs : List Char) : Decidable (AllDigits cs) := inferInstanceAs (Decidable (∀ c ∈ cs, _))

/-- An integer: digits behind an optional sign. -/
inductive IntText : List Char → Int → Prop
  | mk {sign digits : List Char} {negative : Bool} (hsign : SignText sign negative)
      (hne : digits ≠ []) (hdigits : AllDigits digits) :
      IntText (sign ++ digits) (if negative then -digitsValue digits else digitsValue digits)

/-- The exponent behind a mantissa: nothing, or a mark and an integer. -/
inductive ExponentText : List Char → Int → Prop
  | none : ExponentText [] 0
  | some {mark : Char} {cs : List Char} {n : Int} (hmark : mark = 'e' ∨ mark = 'E')
      (htext : IntText cs n) : ExponentText (mark :: cs) n

/-- A decimal without a sign: digits, with a point before, between or behind them or none, and an
optional exponent. -/
inductive DecimalText : List Char → Decimal → Prop
  | whole {digits exponent : List Char} {e : Int} (hne : digits ≠ []) (hdigits : AllDigits digits)
      (hexponent : ExponentText exponent e) :
      DecimalText (digits ++ exponent) ⟨digitsValue digits, e⟩
  | point {whole fraction exponent : List Char} {e : Int} (hne : whole ≠ [] ∨ fraction ≠ [])
      (hwhole : AllDigits whole) (hfraction : AllDigits fraction)
      (hexponent : ExponentText exponent e) :
      DecimalText (whole ++ '.' :: (fraction ++ exponent))
        ⟨digitsValue (whole ++ fraction), e - fraction.length⟩

/-- A word for infinity, in letters of any case. -/
def InfinityText (cs : List Char) : Prop :=
  cs.map Char.toLower = "inf".toList ∨ cs.map Char.toLower = "infinity".toList

/-- The word for what is no number, in letters of any case. -/
def NanText (cs : List Char) : Prop := cs.map Char.toLower = "nan".toList

instance (cs : List Char) : Decidable (InfinityText cs) := inferInstanceAs (Decidable (_ ∨ _))

instance (cs : List Char) : Decidable (NanText cs) := inferInstanceAs (Decidable (_ = _))

/-- A real number: a decimal or a word behind an optional sign. -/
inductive RealText : List Char → Binary64 → Prop
  | decimal {sign body : List Char} {negative : Bool} {d : Decimal} (hsign : SignText sign negative)
      (hbody : DecimalText body d) : RealText (sign ++ body) (.ofDecimal negative d)
  | infinite {sign body : List Char} {negative : Bool} (hsign : SignText sign negative)
      (hbody : InfinityText body) : RealText (sign ++ body) (.infinite negative)
  | nan {sign body : List Char} {negative : Bool} (hsign : SignText sign negative)
      (hbody : NanText body) : RealText (sign ++ body) .nan

/-! ## Signs -/

theorem splitSign_append {sign body : List Char} {negative : Bool} (hsign : SignText sign negative)
    (hbody : ∀ c ∈ body.head?, c ≠ '-' ∧ c ≠ '+') :
    splitSign (sign ++ body) = (negative, body) := by
  cases hsign with
  | plus | minus => rfl
  | none =>
    unfold splitSign
    split
    · next h =>
      rw [List.nil_append] at h
      subst h
      exact absurd rfl (hbody '-' rfl).1
    · next h =>
      rw [List.nil_append] at h
      subst h
      exact absurd rfl (hbody '+' rfl).2
    · rfl

theorem exists_sign (cs : List Char) :
    ∃ sign, SignText sign (splitSign cs).1 ∧ cs = sign ++ (splitSign cs).2 := by
  unfold splitSign
  split
  · exact ⟨['-'], .minus, rfl⟩
  · exact ⟨['+'], .plus, rfl⟩
  · exact ⟨[], .none, rfl⟩

theorem not_sign_of_isDigit {c : Char} (h : c.isDigit = true) : c ≠ '-' ∧ c ≠ '+' := by
  constructor <;> rintro rfl <;> cases h

/-! ## Integers -/

theorem readDigits?_eq_some {cs : List Char} {n : Nat} :
    readDigits? cs = some n ↔ cs ≠ [] ∧ AllDigits cs ∧ digitsValue cs = n := by
  unfold readDigits? AllDigits
  rw [← List.all_eq_true, Option.ite_none_right_eq_some, Option.some.injEq, and_assoc]

theorem head?_of_allDigits {cs : List Char} (h : AllDigits cs) :
    ∀ c ∈ cs.head?, c ≠ '-' ∧ c ≠ '+' :=
  fun _ hc => not_sign_of_isDigit (h _ (List.mem_of_mem_head? hc))

/-- What a sign and a run of digits denote. -/
def signedDigits? (cs : List Char) : Option Int :=
  (readDigits? (splitSign cs).2).map fun (n : Nat) => if (splitSign cs).1 then -(n : Int) else n

theorem signedDigits?_eq_some {cs : List Char} {n : Int} :
    signedDigits? cs = some n ↔ IntText cs n := by
  constructor
  · intro h
    obtain ⟨k, hk, rfl⟩ := Option.map_eq_some_iff.1 h
    obtain ⟨hne, hdigits, rfl⟩ := readDigits?_eq_some.1 hk
    obtain ⟨sign, hsign, hcs⟩ := exists_sign cs
    have htext := IntText.mk hsign hne hdigits
    rwa [← hcs] at htext
  · rintro ⟨hsign, hne, hdigits⟩
    unfold signedDigits?
    rw [splitSign_append hsign (head?_of_allDigits hdigits),
      readDigits?_eq_some.2 ⟨hne, hdigits, rfl⟩]
    rfl

/-- The integers are those that fit a word. -/
theorem readInt64?_eq_some {s : String} {n : Int} :
    readInt64? s = some n ↔ IntText s.toList n ∧ Value.IsInt64 n := by
  have hread : readInt64? s =
      (signedDigits? s.toList).bind fun i => if Value.IsInt64 i then some i else none := by
    unfold readInt64? signedDigits?
    generalize splitSign s.toList = sign
    obtain ⟨negative, cs⟩ := sign
    dsimp only
    cases readDigits? cs <;> rfl
  rw [hread, Option.bind_eq_some_iff]
  constructor
  · rintro ⟨i, hi, hrange⟩
    obtain ⟨hword, hn⟩ := Option.ite_none_right_eq_some.1 hrange
    obtain rfl := Option.some.inj hn
    exact ⟨signedDigits?_eq_some.1 hi, hword⟩
  · rintro ⟨htext, hrange⟩
    exact ⟨n, signedDigits?_eq_some.2 htext, if_pos hrange⟩

/-! ## Decimals -/

theorem readExponent?_eq_some {cs : List Char} {e : Int} :
    readExponent? cs = some e ↔ ExponentText cs e := by
  cases cs with
  | nil =>
    constructor
    · intro h
      cases h
      exact .none
    · rintro ⟨⟩
      rfl
  | cons mark cs =>
    have hread : readExponent? (mark :: cs) =
        if mark = 'e' ∨ mark = 'E' then signedDigits? cs else none := by
      unfold readExponent? signedDigits?
      dsimp only
      cases readDigits? (splitSign cs).2 <;> rfl
    rw [hread, Option.ite_none_right_eq_some, signedDigits?_eq_some]
    constructor
    · rintro ⟨hmark, htext⟩
      exact .some hmark htext
    · rintro ⟨⟩
      exact ⟨‹_›, ‹_›⟩

/-- No digit and no point comes first. -/
theorem ExponentText.head? {cs : List Char} {e : Int} (h : ExponentText cs e) :
    ∀ c ∈ cs.head?, c.isDigit = false ∧ c ≠ '.' := by
  cases h with
  | none => nofun
  | some hmark _ =>
    rintro c ⟨⟩
    obtain rfl | rfl := hmark <;> exact ⟨rfl, by decide⟩

section Runs

variable {digits rest : List Char}

theorem takeWhile_digits (hdigits : AllDigits digits)
    (hrest : ∀ c ∈ rest.head?, c.isDigit = false) :
    (digits ++ rest).takeWhile Char.isDigit = digits := by
  rw [List.takeWhile_append_of_pos hdigits]
  cases rest with
  | nil => exact List.append_nil digits
  | cons c rest => rw [List.takeWhile_cons_of_neg (by simp [hrest c rfl]), List.append_nil]

theorem dropWhile_digits (hdigits : AllDigits digits)
    (hrest : ∀ c ∈ rest.head?, c.isDigit = false) :
    (digits ++ rest).dropWhile Char.isDigit = rest := by
  rw [List.dropWhile_append_of_pos hdigits]
  cases rest with
  | nil => rfl
  | cons c rest => exact List.dropWhile_cons_of_neg (by simp [hrest c rfl])

theorem allDigits_takeWhile (cs : List Char) : AllDigits (cs.takeWhile Char.isDigit) :=
  fun _ hc => List.mem_takeWhile_imp hc

end Runs

/-- Digits and a point, whatever comes behind them. -/
theorem readDecimal?_point {whole : List Char} (hwhole : AllDigits whole) (more : List Char) :
    readDecimal? (whole ++ '.' :: more) =
      if whole = [] ∧ more.takeWhile Char.isDigit = [] then none
      else (readExponent? (more.dropWhile Char.isDigit)).map fun e =>
        ⟨digitsValue (whole ++ more.takeWhile Char.isDigit),
          e - (more.takeWhile Char.isDigit).length⟩ := by
  have hpoint : ∀ c ∈ ('.' :: more).head?, c.isDigit = false := by
    rintro c ⟨⟩
    rfl
  unfold readDecimal?
  rw [takeWhile_digits hwhole hpoint, dropWhile_digits hwhole hpoint]
  rfl

/-- Digits and no point. -/
theorem readDecimal?_whole {digits rest : List Char} (hdigits : AllDigits digits)
    (hrest : ∀ c ∈ rest.head?, c.isDigit = false ∧ c ≠ '.') :
    readDecimal? (digits ++ rest) =
      if digits = [] then none else (readExponent? rest).map fun e => ⟨digitsValue digits, e⟩ := by
  have hhead c (hc : c ∈ rest.head?) := (hrest c hc).1
  unfold readDecimal?
  rw [takeWhile_digits hdigits hhead, dropWhile_digits hdigits hhead]
  dsimp only
  split
  · exact absurd rfl (hrest '.' rfl).2
  · simp

theorem readDecimal?_eq_some {cs : List Char} {d : Decimal} :
    readDecimal? cs = some d ↔ DecimalText cs d := by
  constructor
  · intro h
    have hcs : cs.takeWhile Char.isDigit ++ cs.dropWhile Char.isDigit = cs :=
      List.takeWhile_append_dropWhile
    have hwhole := allDigits_takeWhile cs
    have hafter : ∀ c ∈ (cs.dropWhile Char.isDigit).head?, c.isDigit = false := by
      intro c hc
      rw [← List.find?_not_eq_head?_dropWhile] at hc
      simpa using List.find?_some hc
    generalize cs.takeWhile Char.isDigit = whole at hcs hwhole
    generalize cs.dropWhile Char.isDigit = after at hcs hafter
    subst hcs
    by_cases hpoint : ∃ more, after = '.' :: more
    · obtain ⟨more, rfl⟩ := hpoint
      rw [readDecimal?_point hwhole, Option.ite_none_left_eq_some, Option.map_eq_some_iff] at h
      obtain ⟨hne, e, he, rfl⟩ := h
      have htext := DecimalText.point (not_and_or.1 hne) hwhole (allDigits_takeWhile more)
        (readExponent?_eq_some.1 he)
      rwa [List.takeWhile_append_dropWhile] at htext
    · have hrest : ∀ c ∈ after.head?, c.isDigit = false ∧ c ≠ '.' := by
        intro c hc
        refine ⟨hafter c hc, ?_⟩
        rintro rfl
        exact hpoint ⟨after.tail, (List.cons_head?_tail hc).symm⟩
      rw [readDecimal?_whole hwhole hrest, Option.ite_none_left_eq_some,
        Option.map_eq_some_iff] at h
      obtain ⟨hne, e, he, rfl⟩ := h
      exact .whole hne hwhole (readExponent?_eq_some.1 he)
  · rintro (⟨hne, hdigits, hexponent⟩ | ⟨hne, hwhole, hfraction, hexponent⟩)
    · rw [readDecimal?_whole hdigits hexponent.head?, if_neg hne,
        readExponent?_eq_some.2 hexponent]
      rfl
    · have hrest c (hc : c ∈ _) := (hexponent.head? c hc).1
      rw [readDecimal?_point hwhole, takeWhile_digits hfraction hrest,
        dropWhile_digits hfraction hrest, if_neg (not_and_or.2 hne),
        readExponent?_eq_some.2 hexponent]
      rfl

/-! ## Reals -/

/-- A decimal begins with a digit or the point. -/
theorem DecimalText.exists_head {cs : List Char} {d : Decimal} (h : DecimalText cs d) :
    ∃ c rest, cs = c :: rest ∧ (c.isDigit = true ∨ c = '.') := by
  have hdigit {ds rest : List Char} (hne : ds ≠ []) (hds : AllDigits ds) :
      ∃ c more, ds ++ rest = c :: more ∧ (c.isDigit = true ∨ c = '.') := by
    obtain ⟨c, more, rfl⟩ := List.exists_cons_of_ne_nil hne
    exact ⟨c, more ++ rest, rfl, .inl (hds c List.mem_cons_self)⟩
  cases h with
  | whole hne hdigits _ => exact hdigit hne hdigits
  | @point whole fraction exponent _ _ hwhole _ _ =>
    cases whole with
    | nil => exact ⟨'.', _, rfl, .inr rfl⟩
    | cons c rest => exact hdigit (List.cons_ne_nil c rest) hwhole

/-- The first letter of a word tells it from a sign and from a decimal. -/
theorem head_of_word {c letter : Char} {cs word : List Char}
    (h : (c :: cs).map Char.toLower = letter :: word) (hletter : letter = 'i' ∨ letter = 'n') :
    ¬(c.isDigit = true ∨ c = '.') ∧ c ≠ '-' ∧ c ≠ '+' := by
  obtain ⟨hlower, -⟩ := List.cons.inj h
  refine ⟨?_, ?_, ?_⟩
  · rintro (hdigit | rfl)
    · rw [toLower_of_isDigit hdigit] at hlower
      subst hlower
      obtain rfl | rfl := hletter <;> cases hdigit
    · subst hlower
      simp at hletter
  · rintro rfl
    subst hlower
    simp at hletter
  · rintro rfl
    subst hlower
    simp at hletter

/-- A word begins with no sign and is no decimal. -/
theorem not_decimal_of_word {cs : List Char} (h : InfinityText cs ∨ NanText cs) :
    (∀ c ∈ cs.head?, c ≠ '-' ∧ c ≠ '+') ∧ ∀ d, ¬DecimalText cs d := by
  obtain ⟨letter, word, hletter, hword⟩ :
      ∃ letter word, (letter = 'i' ∨ letter = 'n') ∧ cs.map Char.toLower = letter :: word := by
    obtain (hinf | hinfinity) | hnan := h
    · exact ⟨'i', _, .inl rfl, hinf⟩
    · exact ⟨'i', _, .inl rfl, hinfinity⟩
    · exact ⟨'n', _, .inr rfl, hnan⟩
  constructor
  · intro c hc
    obtain ⟨rest, rfl⟩ : ∃ rest, cs = c :: rest := ⟨cs.tail, (List.cons_head?_tail hc).symm⟩
    exact (head_of_word hword hletter).2
  · intro d hd
    obtain ⟨c, rest, rfl, hhead⟩ := hd.exists_head
    exact (head_of_word hword hletter).1 hhead

theorem InfinityText.not_nan {cs : List Char} (h : InfinityText cs) : ¬NanText cs := by
  unfold InfinityText NanText at *
  obtain h | h := h <;> rw [h] <;> simp

/-- What stands behind the sign is a word or a decimal. -/
theorem readReal?_eq (s : String) :
    readReal? s =
      if InfinityText (splitSign s.toList).2 then
        some (Binary64.infinite (splitSign s.toList).1)
      else if NanText (splitSign s.toList).2 then some Binary64.nan
      else (readDecimal? (splitSign s.toList).2).map
        (Binary64.ofDecimal (splitSign s.toList).1) := by
  unfold readReal? InfinityText NanText
  rfl

theorem readReal?_eq_some {s : String} {x : Binary64} :
    readReal? s = some x ↔ RealText s.toList x := by
  rw [readReal?_eq]
  constructor
  · intro h
    obtain ⟨sign, hsign, hs⟩ := exists_sign s.toList
    generalize splitSign s.toList = rest at h hsign hs
    rw [hs]
    split at h
    · next hinfinity =>
      cases h
      exact .infinite hsign hinfinity
    · split at h
      · next hnan =>
        cases h
        exact .nan hsign hnan
      · obtain ⟨d, hd, rfl⟩ := Option.map_eq_some_iff.1 h
        exact .decimal hsign (readDecimal?_eq_some.1 hd)
  · intro h
    generalize s.toList = cs at h
    cases h with
    | @decimal sign body _ d hsign hbody =>
      have hword : ¬(InfinityText body ∨ NanText body) := fun hword =>
        (not_decimal_of_word hword).2 d hbody
      have hhead : ∀ c ∈ body.head?, c ≠ '-' ∧ c ≠ '+' := by
        obtain ⟨c, rest, rfl, hdigit | rfl⟩ := hbody.exists_head
        · rintro _ ⟨⟩
          exact not_sign_of_isDigit hdigit
        · rintro _ ⟨⟩
          decide
      rw [splitSign_append hsign hhead, if_neg fun h => hword (.inl h),
        if_neg fun h => hword (.inr h), readDecimal?_eq_some.2 hbody]
      rfl
    | infinite hsign hbody =>
      rw [splitSign_append hsign (not_decimal_of_word (.inl hbody)).1, if_pos hbody]
    | nan hsign hbody =>
      rw [splitSign_append hsign (not_decimal_of_word (.inr hbody)).1,
        if_neg fun hinfinity => hinfinity.not_nan hbody, if_pos hbody]

/-- An integer is also a real. -/
theorem IntText.realText {cs : List Char} {n : Int} (h : IntText cs n) :
    ∃ negative k, n.natAbs = k ∧ RealText cs (.ofDecimal negative ⟨k, 0⟩) := by
  obtain @⟨sign, digits, negative, hsign, hne, hdigits⟩ := h
  refine ⟨negative, digitsValue digits, ?_, ?_⟩
  · split <;> omega
  · have hbody := DecimalText.whole hne hdigits .none
    rw [List.append_nil] at hbody
    exact .decimal hsign hbody

/-! ## Range -/

/-- The number that a decimal denotes. -/
def Decimal.value (d : Decimal) : ℚ := d.digits * 10 ^ d.exponent

namespace Binary64

/-- The number is neither infinite nor a NaN. -/
def IsFinite (x : Binary64) : Prop := ∃ f, x = .finite f

/-- The middle between the largest finite number and the first power of two behind it. -/
def bound : ℚ := (2 ^ 54 - 1) * 2 ^ 970

variable {num den : Nat}

/-- Below an even integer a quotient is rounded if it is below the half before it. -/
theorem divRoundEven_lt_iff {num den k : Nat} (hden : 0 < den) (hk : 0 < k) :
    divRoundEven num den < 2 * k ↔ 2 * num < (4 * k - 1) * den := by
  have hsplit := Nat.div_add_mod num den
  have hrest := Nat.mod_lt num hden
  unfold divRoundEven
  dsimp only
  generalize num / den = q at hsplit ⊢
  generalize num % den = r at hsplit hrest ⊢
  subst hsplit
  obtain ⟨j, hj⟩ : ∃ j, 4 * k = j + 1 := ⟨4 * k - 1, by omega⟩
  rw [hj, Nat.add_sub_cancel]
  have hmul {a b : Nat} (h : a ≤ b) : den * a ≤ den * b := Nat.mul_le_mul_left den h
  split
  · constructor
    · intro h
      have := hmul (show 2 * q + 1 ≤ j by omega)
      nlinarith
    · intro h
      by_contra hge
      have := hmul (show j + 1 ≤ 2 * q by omega)
      nlinarith
  · split
    · constructor
      · intro h
        have := hmul (show 2 * q + 3 ≤ j by omega)
        nlinarith
      · intro h
        by_contra hge
        have := hmul (show j ≤ 2 * q + 1 by omega)
        nlinarith
    · have htie : 2 * r = den := by omega
      split
      · constructor
        · intro h
          have := hmul (show 2 * q + 2 ≤ j by omega)
          nlinarith
        · intro h
          by_contra hge
          have := hmul (show j + 1 ≤ 2 * q by omega)
          nlinarith
      · constructor
        · intro h
          have := hmul (show 2 * q + 2 ≤ j by omega)
          nlinarith
        · intro h
          by_contra hge
          have := hmul (show j ≤ 2 * q + 1 by omega)
          nlinarith

/-- A quotient is rounded to a finite magnitude exactly if it is below the middle between the largest
of these and the first power of two behind it. -/
theorem fits_roundUnits_iff (hden : 0 < den) :
    Fits (roundUnits num den) ↔ num < (2 ^ 54 - 1) * Nat.pow 2 (limitExponent - 54) * den := by
  have hlimit : 54 ≤ limitExponent := by decide
  have hfits : Fits (roundUnits num den) ↔ roundUnits num den < unitsLimit :=
    ⟨And.left, fun h => ⟨h, grain_dvd_roundUnits num hden⟩⟩
  rw [hfits]
  unfold unitsLimit
  obtain ⟨k, hk⟩ : ∃ k, limitExponent = k + 54 := ⟨limitExponent - 54, by omega⟩
  rw [hk, Nat.add_sub_cancel]
  have hpow (j : Nat) : Nat.pow 2 (k + j) = 2 ^ j * Nat.pow 2 k := by
    rw [Nat.mul_comm]
    exact Nat.pow_add 2 k j
  have hpos : 0 < Nat.pow 2 k * den := Nat.mul_pos (Nat.two_pow_pos k) hden
  have hmid : (2 ^ 54 - 1) * Nat.pow 2 k * den =
      2 ^ 54 * (Nat.pow 2 k * den) - Nat.pow 2 k * den := by
    rw [Nat.mul_assoc, Nat.sub_mul, Nat.one_mul]
  rcases Nat.lt_or_ge num (Nat.pow 2 (k + 53) * den) with hlow | hlow
  · -- the quotient is below the last power of two
    have hle := roundUnits_le hden (Nat.le_of_lt hlow)
    have hlt : Nat.pow 2 (k + 53) < Nat.pow 2 (k + 54) :=
      Nat.pow_lt_pow_right Nat.one_lt_two (Nat.lt_succ_self _)
    refine iff_of_true (Nat.lt_of_le_of_lt hle hlt) ?_
    rw [hpow, Nat.mul_assoc] at hlow
    omega
  · rcases Nat.lt_or_ge num (Nat.pow 2 (k + 54) * den) with hhigh | hhigh
    · -- the quotient lies between the last power of two and the limit
      have hquotient : Nat.pow 2 (k + 53) ≤ num / den := (Nat.le_div_iff_mul_le hden).2 hlow
      have hne : num / den ≠ 0 :=
        Nat.ne_of_gt (Nat.lt_of_lt_of_le (Nat.two_pow_pos _) hquotient)
      have hlog : (num / den).log2 = k + 53 :=
        (Nat.log2_eq_iff hne).2 ⟨hquotient, (Nat.div_lt_iff_lt_mul hden).2 hhigh⟩
      have hgrain : k + 53 - 52 = k + 1 := by omega
      have hgrain0 : 0 < Nat.pow 2 (k + 1) := Nat.two_pow_pos _
      unfold roundUnits
      dsimp only
      rw [hlog, hgrain]
      have hlimit : Nat.pow 2 (k + 54) = 2 * 2 ^ 52 * Nat.pow 2 (k + 1) := by
        rw [hpow, hpow]
        ring
      rw [hlimit, Nat.mul_lt_mul_right hgrain0,
        divRoundEven_lt_iff (Nat.mul_pos hden hgrain0) (Nat.two_pow_pos 52)]
      have hdouble : den * Nat.pow 2 (k + 1) = 2 * (Nat.pow 2 k * den) := by
        rw [hpow]
        ring
      rw [hdouble, hmid]
      omega
    · have hle := le_roundUnits hden hhigh
      refine iff_of_false (Nat.not_lt.2 hle) ?_
      rw [hpow, Nat.mul_assoc] at hhigh
      omega

theorem isFinite_ofUnits (negative : Bool) (units : Nat) :
    (ofUnits negative units).IsFinite ↔ Fits units := by
  unfold ofUnits IsFinite
  by_cases h : Fits units
  · rw [dif_pos h]
    exact iff_of_true ⟨_, rfl⟩ h
  · rw [dif_neg h]
    refine iff_of_false ?_ h
    rintro ⟨f, hf⟩
    cases hf

/-- The number nearest to a quotient is finite exactly if the quotient is below the bound. -/
theorem isFinite_ofQuotient (negative : Bool) (a : Nat) {b : Nat} (hb : 0 < b) :
    (ofQuotient negative (a * unitsPerOne) b).IsFinite ↔ (a / b : ℚ) < bound := by
  have hfits : (ofQuotient negative (a * unitsPerOne) b).IsFinite ↔
      Fits (roundUnits (a * unitsPerOne) b) := isFinite_ofUnits _ _
  have hscale : Nat.pow 2 (limitExponent - 54) = 2 ^ 970 * unitsPerOne := by
    obtain ⟨e, he, hlimit⟩ := exists_unit
    have hexponent : limitExponent - 54 = 970 + e := by omega
    have hpow (m : Nat) : Nat.pow 2 (m + e) = 2 ^ m * Nat.pow 2 e := Nat.pow_add 2 m e
    calc Nat.pow 2 (limitExponent - 54) = Nat.pow 2 (970 + e) := congrArg (Nat.pow 2) hexponent
      _ = 2 ^ 970 * Nat.pow 2 e := hpow 970
      _ = 2 ^ 970 * unitsPerOne := congrArg (2 ^ 970 * ·) he.symm
  have hcancel : a * unitsPerOne < (2 ^ 54 - 1) * (2 ^ 970 * unitsPerOne) * b ↔
      a < (2 ^ 54 - 1) * 2 ^ 970 * b := by
    have hassoc : (2 ^ 54 - 1) * (2 ^ 970 * unitsPerOne) * b =
        (2 ^ 54 - 1) * 2 ^ 970 * b * unitsPerOne := by
      rw [← Nat.mul_assoc, Nat.mul_right_comm]
    rw [hassoc, Nat.mul_lt_mul_right unitsPerOne_pos]
  have hb0 : (0 : ℚ) < b := Nat.cast_pos.2 hb
  have hbound : (((2 ^ 54 - 1) * 2 ^ 970 * b : ℕ) : ℚ) = bound * b := by
    have hmax : ((2 ^ 54 - 1 : ℕ) : ℚ) = 2 ^ 54 - 1 := by norm_num
    rw [bound, Nat.cast_mul, Nat.cast_mul, Nat.cast_pow, Nat.cast_ofNat, hmax]
  rw [hfits, fits_roundUnits_iff hb, hscale, hcancel, div_lt_iff₀ hb0, ← hbound, Nat.cast_lt]

theorem one_le_bound : 1 ≤ bound := by
  have hpow : (1 : ℚ) ≤ 2 ^ 970 := one_le_pow₀ (by norm_num)
  unfold bound
  generalize (2 : ℚ) ^ 970 = p at hpow ⊢
  linarith

/-- No decimal with so large an exponent is below the bound. -/
theorem bound_le_of_exponent {d : Decimal} (hdigits : d.digits ≠ 0) (h : 400 < d.exponent) :
    bound ≤ d.value := by
  have hone : (1 : ℚ) ≤ d.digits := Nat.one_le_cast.2 (Nat.pos_of_ne_zero hdigits)
  have hexponent : (10 : ℚ) ^ 400 ≤ 10 ^ d.exponent := by
    rw [← zpow_natCast]
    exact zpow_le_zpow_right₀ (by norm_num) (by omega)
  calc bound ≤ 2 ^ 54 * 2 ^ 970 := mul_le_mul_of_nonneg_right (by norm_num) (by positivity)
    _ = 2 ^ (54 + 970) := (pow_add 2 54 970).symm
    _ ≤ 2 ^ (3 * 400) := pow_le_pow_right₀ (by norm_num) (by norm_num)
    _ = (2 ^ 3) ^ 400 := pow_mul 2 3 400
    _ ≤ 10 ^ 400 := pow_le_pow_left₀ (by norm_num) (by norm_num) 400
    _ ≤ 10 ^ d.exponent := hexponent
    _ ≤ d.digits * 10 ^ d.exponent := le_mul_of_one_le_left (by positivity) hone

/-- A decimal with so small an exponent for its digits is below one. -/
theorem value_lt_one_of_exponent {d : Decimal} (h : d.exponent < -400 - (d.digits.log2 : Int)) :
    d.value < 1 := by
  have hdigits : (d.digits : ℚ) < 10 ^ (d.digits.log2 + 1) := by
    have hlog : d.digits < 10 ^ (d.digits.log2 + 1) :=
      Nat.lt_of_lt_of_le Nat.lt_log2_self (Nat.pow_le_pow_left (by decide) _)
    exact_mod_cast hlog
  calc d.value < 10 ^ (d.digits.log2 + 1) * 10 ^ d.exponent :=
        mul_lt_mul_of_pos_right hdigits (by positivity)
    _ = 10 ^ ((d.digits.log2 + 1 : ℕ) + d.exponent) := by
      rw [zpow_add₀ (by norm_num), zpow_natCast]
    _ ≤ 10 ^ (0 : ℤ) := zpow_le_zpow_right₀ (by norm_num) (by push_cast; omega)
    _ = 1 := zpow_zero 10

/-- A decimal has a finite number nearest to it exactly if it is below the bound. -/
theorem isFinite_ofDecimal (negative : Bool) (d : Decimal) :
    (ofDecimal negative d).IsFinite ↔ d.value < bound := by
  have hzero : (ofUnits negative 0).IsFinite := ⟨_, dif_pos fits_zero⟩
  have hten (k : ℕ) : ((Nat.pow 10 k : ℕ) : ℚ) = 10 ^ k := Nat.cast_pow 10 k
  unfold ofDecimal
  split
  · next hdigits =>
    have hvalue : d.value = 0 := by simp [Decimal.value, hdigits]
    refine iff_of_true hzero ?_
    rw [hvalue]
    exact lt_of_lt_of_le one_pos one_le_bound
  · next hdigits =>
    split
    · next hlarge =>
      refine iff_of_false ?_ (not_lt.2 (bound_le_of_exponent hdigits hlarge))
      rintro ⟨f, hf⟩
      cases hf
    · split
      · next hsmall =>
        exact iff_of_true hzero (lt_of_lt_of_le (value_lt_one_of_exponent hsmall) one_le_bound)
      · split
        · next hexponent =>
          obtain ⟨k, hk⟩ := Int.eq_ofNat_of_zero_le hexponent
          have hvalue : d.value = ((d.digits * Nat.pow 10 k : ℕ) : ℚ) / (1 : ℕ) := by
            rw [Decimal.value, hk, zpow_natCast, Nat.cast_one, div_one, Nat.cast_mul, hten]
          rw [hvalue, hk]
          exact isFinite_ofQuotient negative _ Nat.one_pos
        · next hexponent =>
          obtain ⟨k, hk⟩ : ∃ k : ℕ, d.exponent = -k := ⟨(-d.exponent).toNat, by omega⟩
          have hvalue : d.value = (d.digits : ℚ) / ((Nat.pow 10 k : ℕ) : ℚ) := by
            rw [Decimal.value, hk, zpow_neg, zpow_natCast, ← div_eq_mul_inv, hten]
          rw [hvalue, hk, neg_neg]
          exact isFinite_ofQuotient negative _ (Nat.pow_pos (by decide))

end Binary64

end Deskhand
