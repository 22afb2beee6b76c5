import Deskhand.Proofs.Filling
import Deskhand.Proofs.Numerals
import Deskhand.Step.Data

/-!
# The number in a text

Text To Number reads the first word of a text without the marks of currency, number and percent and
without separators. What it gives follows from the numeral that is left (`number_in_text`): nothing
if that is none, an integer, or a finite real. A numeral that is out of range, and a word for infinity
or for what is no number, it gives as null, and does not refuse it (`not_number_in_text`).
-/

namespace Deskhand

/-! ## The first word -/

namespace Text

/-- The first word stands behind blanks only and ends at a blank, or with the text. -/
def FirstWord (cs word : List Char) : Prop :=
  ∃ before after, cs = before ++ (word ++ after) ∧ (∀ c ∈ before, isBlank c = true) ∧
    word ≠ [] ∧ (∀ c ∈ word, isBlank c = false) ∧ ∀ c ∈ after.head?, isBlank c = true

/-- A word that has begun goes on up to the next blank. -/
theorem head?_wordsFrom_of_begun {run : List Char} (hrun : run ≠ []) {word after : List Char}
    (hword : ∀ c ∈ word, isBlank c = false) (hafter : ∀ c ∈ after.head?, isBlank c = true) :
    (wordsFrom run (word ++ after)).head? = some (run.reverse ++ word) := by
  induction word generalizing run with
  | nil =>
    rw [List.nil_append, List.append_nil]
    cases after with
    | nil => simp [wordsFrom, hrun]
    | cons c after => simp [wordsFrom, hafter c rfl, hrun]
  | cons c word ih =>
    obtain ⟨hc, hword⟩ := List.forall_mem_cons.1 hword
    rw [List.cons_append, wordsFrom, if_neg (by simp [hc]), ih (List.cons_ne_nil c run) hword,
      List.reverse_cons, List.append_assoc]
    rfl

theorem wordsFrom_blanks {before : List Char} (h : ∀ c ∈ before, isBlank c = true)
    (rest : List Char) : wordsFrom [] (before ++ rest) = wordsFrom [] rest := by
  induction before with
  | nil => rfl
  | cons c before ih =>
    obtain ⟨hc, hbefore⟩ := List.forall_mem_cons.1 h
    rw [List.cons_append, wordsFrom, if_pos hc, ih hbefore]
    rfl

theorem head?_words_of_first {s : String} {word : List Char} (h : FirstWord s.toList word) :
    (words s).head? = some (String.ofList word) := by
  obtain ⟨before, after, hs, hbefore, hne, hword, hafter⟩ := h
  obtain ⟨c, rest, rfl⟩ := List.exists_cons_of_ne_nil hne
  obtain ⟨hc, hrest⟩ := List.forall_mem_cons.1 hword
  unfold words
  rw [List.head?_map, hs, wordsFrom_blanks hbefore, List.cons_append, wordsFrom,
    if_neg (by simp [hc]), head?_wordsFrom_of_begun (List.cons_ne_nil c []) hrest hafter]
  rfl

theorem exists_first_or_blank (cs : List Char) :
    (∃ word, FirstWord cs word) ∨ ∀ c ∈ cs, isBlank c = true := by
  induction cs with
  | nil => exact .inr (List.forall_mem_nil _)
  | cons c rest ih =>
    cases hc : isBlank c with
    | true =>
      obtain ⟨word, before, after, rfl, hbefore, hword⟩ | hrest := ih
      · exact .inl ⟨word, c :: before, after, rfl, List.forall_mem_cons.2 ⟨hc, hbefore⟩, hword⟩
      · exact .inr (List.forall_mem_cons.2 ⟨hc, hrest⟩)
    | false =>
      refine .inl ⟨c :: rest.takeWhile (!isBlank ·), [], rest.dropWhile (!isBlank ·), ?_,
        List.forall_mem_nil _, List.cons_ne_nil _ _, List.forall_mem_cons.2 ⟨hc, ?_⟩, ?_⟩
      · rw [List.nil_append, List.cons_append, List.takeWhile_append_dropWhile]
      · intro d hd
        simpa using List.mem_takeWhile_imp hd
      · intro d hd
        rw [← List.find?_not_eq_head?_dropWhile] at hd
        simpa using List.find?_some hd

theorem head?_words_of_none {s : String} (h : ∀ word, ¬FirstWord s.toList word) :
    (words s).head? = none := by
  have hblank := (exists_first_or_blank s.toList).resolve_left fun ⟨word, hword⟩ => h word hword
  have hnone := wordsFrom_blanks hblank []
  rw [List.append_nil] at hnone
  unfold words
  rw [hnone]
  rfl

end Text

/-! ## Quotients by a hundred -/

namespace Binary64

variable {x : Binary64}

theorem toFinite?_eq_none : x.toFinite? = none ↔ ¬x.IsFinite := by
  cases x with
  | finite f => exact iff_of_false nofun fun h => h ⟨f, rfl⟩
  | infinite negative =>
    refine iff_of_true rfl ?_
    rintro ⟨f, hf⟩
    cases hf
  | nan =>
    refine iff_of_true rfl ?_
    rintro ⟨f, hf⟩
    cases hf

/-- A hundredth is finite exactly if the whole is. -/
theorem isFinite_hundredth : (x / ofInt 100).IsFinite ↔ x.IsFinite := by
  obtain ⟨hundred, heq, hvalue⟩ := whole_ofInt (n := 100) (by decide)
  have hunits : hundred.units = 100 * unitsPerOne := by
    rw [← hundred.natAbs_value, hvalue]
    rfl
  have hpos : 0 < 100 * unitsPerOne := Nat.mul_pos (by decide) unitsPerOne_pos
  change (div x (ofInt 100)).IsFinite ↔ _
  have hofInt : ofInt 100 = .finite hundred := heq
  rw [hofInt]
  cases x with
  | finite f =>
    have hdiv : div (.finite f) (.finite hundred) = ofQuotient (f.negative != hundred.negative)
        (f.units * unitsPerOne) (100 * unitsPerOne) := by
      have hnonzero : hundred.isZero = false := by
        rw [Finite64.isZero, hunits]
        exact beq_false_of_ne (Nat.ne_of_gt hpos)
      simp only [div, hnonzero, Bool.false_eq_true, if_false, hunits]
    obtain ⟨k, hk⟩ : ∃ k, limitExponent = k + 1 := ⟨limitExponent - 1, by decide⟩
    have hle : f.units * unitsPerOne ≤ Nat.pow 2 k * (100 * unitsPerOne) := by
      have hlt : f.units < unitsLimit := f.fits.1
      have hlimit : unitsLimit = Nat.pow 2 k * 2 := by
        unfold unitsLimit
        rw [hk]
        rfl
      rw [hlimit] at hlt
      rw [← Nat.mul_assoc]
      exact Nat.mul_le_mul_right _ (by omega)
    rw [hdiv]
    exact iff_of_true ((isFinite_ofUnits _ _).2 (fits_roundUnits hpos hle (by omega))) ⟨f, rfl⟩
  | infinite negative =>
    refine iff_of_false ?_ ?_ <;>
    · rintro ⟨f, hf⟩
      cases hf
  | nan =>
    refine iff_of_false ?_ ?_ <;>
    · rintro ⟨f, hf⟩
      cases hf

end Binary64

/-! ## Numerals without a finite number -/

/-- The numeral is out of range, or a word. -/
def Unbounded (cs : List Char) : Prop :=
  ∃ sign body negative, cs = sign ++ body ∧ SignText sign negative ∧
    (InfinityText body ∨ NanText body ∨ ∃ d, DecimalText body d ∧ Binary64.bound ≤ d.value)

theorem unbounded_iff {cs : List Char} :
    Unbounded cs ↔ ∃ x, RealText cs x ∧ ¬x.IsFinite := by
  constructor
  · rintro ⟨sign, body, negative, rfl, hsign, hinfinity | hnan | ⟨d, hd, hbound⟩⟩
    · refine ⟨_, .infinite hsign hinfinity, ?_⟩
      rintro ⟨f, hf⟩
      cases hf
    · refine ⟨_, .nan hsign hnan, ?_⟩
      rintro ⟨f, hf⟩
      cases hf
    · refine ⟨_, .decimal hsign hd, ?_⟩
      rw [Binary64.isFinite_ofDecimal]
      exact not_lt.2 hbound
  · rintro ⟨x, hx, hfinite⟩
    cases hx with
    | @decimal sign body negative d hsign hbody =>
      rw [Binary64.isFinite_ofDecimal] at hfinite
      exact ⟨sign, body, negative, rfl, hsign, .inr (.inr ⟨d, hbody, not_lt.1 hfinite⟩)⟩
    | infinite hsign hbody => exact ⟨_, _, _, rfl, hsign, .inl hbody⟩
    | nan hsign hbody => exact ⟨_, _, _, rfl, hsign, .inr (.inl hbody)⟩

/-- A numeral is read as one number. -/
theorem RealText.unique {cs : List Char} {x y : Binary64} (hx : RealText cs x)
    (hy : RealText cs y) : x = y := by
  rw [← String.toList_ofList (l := cs), ← readReal?_eq_some] at hx hy
  exact Option.some.inj (hx.symm.trans hy)

/-- An integer of a word is in range. -/
theorem IntText.not_unbounded {cs : List Char} {n : Int} (h : IntText cs n)
    (hrange : Value.IsInt64 n) : ¬Unbounded cs := by
  rw [unbounded_iff]
  rintro ⟨x, hx, hfinite⟩
  obtain ⟨negative, k, hk, hreal⟩ := h.realText
  obtain rfl := hreal.unique hx
  refine hfinite ((Binary64.isFinite_ofDecimal _ _).2 ?_)
  have hword : (k : ℚ) ≤ 2 ^ 63 := by
    unfold Value.IsInt64 Word.minInt Word.maxInt at hrange
    have hle : k ≤ 2 ^ 63 := by omega
    exact_mod_cast hle
  have hpow : (2 : ℚ) ^ 10 ≤ 2 ^ 970 := pow_le_pow_right₀ (by norm_num) (by norm_num)
  unfold Decimal.value Binary64.bound
  generalize (2 : ℚ) ^ 970 = p at hpow ⊢
  rw [zpow_zero, mul_one]
  linarith

/-! ## Reals as values -/

namespace Value

variable {x : Binary64}

theorem real_eq_number {y : Number} :
    Value.real x = .number y ↔ ∃ f, x = .finite f ∧ y = .real f := by
  cases x with
  | finite f => simp [Value.real, Binary64.toFinite?, eq_comm]
  | infinite | nan => simp [Value.real, Binary64.toFinite?]

theorem real_eq_null : Value.real x = .null ↔ ¬x.IsFinite := by
  cases x with
  | finite f => simp [Value.real, Binary64.toFinite?, Binary64.IsFinite]
  | infinite | nan => simp [Value.real, Binary64.toFinite?, Binary64.IsFinite]

end Value

/-! ## What is found -/

section Found

/-- A word without the marks that are passed over. -/
def bare (word : List Char) : List Char := word.filter fun c => c ∉ ['$', '#', '%', ',']

variable {text : String} {word : List Char}

theorem numberIn?_of_percent (h : Text.FirstWord text.toList word) (hpercent : '%' ∈ word) :
    numberIn? text =
      (readReal? (String.ofList (bare word))).map fun x => Value.real (x / .ofInt 100) := by
  unfold numberIn?
  rw [Text.head?_words_of_first h]
  dsimp only
  rw [String.toList_ofList, if_pos (List.contains_iff_mem.2 hpercent)]
  rfl

theorem numberIn?_of_plain (h : Text.FirstWord text.toList word) (hplain : '%' ∉ word) :
    numberIn? text =
      match readInt64? (String.ofList (bare word)) with
      | some n => some (.int n)
      | none => (readReal? (String.ofList (bare word))).map Value.real := by
  unfold numberIn?
  rw [Text.head?_words_of_first h]
  dsimp only
  rw [String.toList_ofList, if_neg (mt List.contains_iff_mem.1 hplain)]
  rfl

theorem numberIn?_of_none (h : ∀ word, ¬Text.FirstWord text.toList word) :
    numberIn? text = none := by
  unfold numberIn?
  rw [Text.head?_words_of_none h]

/-- The numeral counts as an integer: there is no percent sign, and it is the integer of a word. -/
def CountsWhole (word : List Char) (n : Int) : Prop :=
  '%' ∉ word ∧ IntText (bare word) n ∧ Value.IsInt64 n

theorem forall_not_countsWhole :
    (∀ n, ¬CountsWhole word n) ↔
      '%' ∈ word ∨ ∀ n, IntText (bare word) n → ¬Value.IsInt64 n := by
  unfold CountsWhole
  by_cases hpercent : '%' ∈ word <;> simp [hpercent]

/-- What a numeral that is no integer comes to. -/
def scaled (word : List Char) (x : Binary64) : Binary64 :=
  if '%' ∈ word then x / .ofInt 100 else x

theorem isFinite_scaled {x : Binary64} : (scaled word x).IsFinite ↔ x.IsFinite := by
  unfold scaled
  split
  · exact Binary64.isFinite_hundredth
  · rfl

/-- An integer is found, or a real that is scaled, if the word is a numeral. -/
theorem numberIn?_eq_some_iff (h : Text.FirstWord text.toList word) {v : Value} :
    numberIn? text = some v ↔ (∃ n, CountsWhole word n ∧ v = .int n) ∨
      (∀ n, ¬CountsWhole word n) ∧ ∃ x, RealText (bare word) x ∧ v = .real (scaled word x) := by
  have hreal {f : Binary64 → Value} : (readReal? (String.ofList (bare word))).map f = some v ↔
      ∃ x, RealText (bare word) x ∧ v = f x := by
    simp only [Option.map_eq_some_iff, readReal?_eq_some, String.toList_ofList, eq_comm (a := v)]
  by_cases hpercent : '%' ∈ word
  · have hnone n : ¬CountsWhole word n := fun hn => hn.1 hpercent
    rw [numberIn?_of_percent h hpercent, hreal]
    simp [hnone, scaled, hpercent]
  · have hcounts n : CountsWhole word n ↔ readInt64? (String.ofList (bare word)) = some n := by
      rw [readInt64?_eq_some, String.toList_ofList]
      exact and_iff_right hpercent
    rw [numberIn?_of_plain h hpercent]
    simp only [hcounts]
    cases hint : readInt64? (String.ofList (bare word)) with
    | some n => simp [eq_comm]
    | none =>
      rw [hreal]
      simp [scaled, hpercent]

theorem numberIn?_eq_none_iff :
    numberIn? text = none ↔
      ∀ word, Text.FirstWord text.toList word → ∀ x, ¬RealText (bare word) x := by
  constructor
  · intro hnone word hword x hx
    by_cases hwhole : ∃ n, CountsWhole word n
    · obtain ⟨n, hn⟩ := hwhole
      have hfound := (numberIn?_eq_some_iff hword).2 (.inl ⟨n, hn, rfl⟩)
      rw [hnone] at hfound
      cases hfound
    · have hfound := (numberIn?_eq_some_iff hword).2
        (.inr ⟨not_exists.1 hwhole, x, hx, rfl⟩)
      rw [hnone] at hfound
      cases hfound
  · intro hnumeral
    by_cases hfirst : ∃ word, Text.FirstWord text.toList word
    · obtain ⟨word, hword⟩ := hfirst
      refine Option.eq_none_iff_forall_ne_some.2 fun v hv => ?_
      obtain ⟨n, ⟨-, htext, -⟩, -⟩ | ⟨-, x, hx, -⟩ := (numberIn?_eq_some_iff hword).1 hv
      · obtain ⟨negative, k, -, hreal⟩ := htext.realText
        exact hnumeral word hword _ hreal
      · exact hnumeral word hword x hx
    · exact numberIn?_of_none (not_exists.1 hfirst)

theorem numberIn?_eq_int_iff (h : Text.FirstWord text.toList word) {n : Int} :
    numberIn? text = some (.int n) ↔ CountsWhole word n := by
  rw [numberIn?_eq_some_iff h]
  constructor
  · rintro (⟨m, hm, heq⟩ | ⟨-, x, -, heq⟩)
    · cases heq
      exact hm
    · obtain ⟨f, -, hf⟩ := Value.real_eq_number.1 heq.symm
      cases hf
  · exact fun hn => .inl ⟨n, hn, rfl⟩

theorem numberIn?_eq_real_iff (h : Text.FirstWord text.toList word) {f : Finite64} :
    numberIn? text = some (.number (.real f)) ↔
      (∀ n, ¬CountsWhole word n) ∧ ∃ x, RealText (bare word) x ∧ scaled word x = .finite f := by
  rw [numberIn?_eq_some_iff h]
  constructor
  · rintro (⟨m, -, heq⟩ | ⟨hnone, x, hx, heq⟩)
    · cases heq
    · obtain ⟨g, hg, heq⟩ := Value.real_eq_number.1 heq.symm
      cases heq
      exact ⟨hnone, x, hx, hg⟩
  · rintro ⟨hnone, x, hx, hf⟩
    exact .inr ⟨hnone, x, hx, (Value.real_eq_number.2 ⟨f, hf, rfl⟩).symm⟩

/-- Null is found for the numerals without a finite number. -/
theorem numberIn?_eq_null_iff (h : Text.FirstWord text.toList word) :
    numberIn? text = some .null ↔ Unbounded (bare word) := by
  rw [numberIn?_eq_some_iff h, unbounded_iff]
  constructor
  · rintro (⟨m, -, heq⟩ | ⟨-, x, hx, heq⟩)
    · cases heq
    · exact ⟨x, hx, mt isFinite_scaled.2 (Value.real_eq_null.1 heq.symm)⟩
  · rintro ⟨x, hx, hfinite⟩
    refine .inr ⟨fun n hn => ?_, x, hx, (Value.real_eq_null.2 (mt isFinite_scaled.1 hfinite)).symm⟩
    exact hn.2.1.not_unbounded hn.2.2 (unbounded_iff.2 ⟨x, hx, hfinite⟩)

theorem null_or_number (h : Text.FirstWord text.toList word) {v : Value}
    (hv : numberIn? text = some v) : v = .null ∨ ∃ x, v = .number x := by
  obtain ⟨n, -, rfl⟩ | ⟨-, x, -, rfl⟩ := (numberIn?_eq_some_iff h).1 hv
  · exact .inr ⟨.int n, rfl⟩
  · cases scaled word x with
    | finite f => exact .inr ⟨.real f, rfl⟩
    | infinite | nan => exact .inl rfl

end Found

/-! ## The step -/

/-- The arguments of the step are read as these. -/
def TextToNumberGiven (args : Entries Value) (intext numvar : String) : Prop :=
  ∃ r, Shape.readEntries ⟨"", [.text "intext", .text "numvar"]⟩ args = .ok r ∧
    r.text "intext" = intext ∧ r.text "numvar" = numvar

/-- The step evaluates its text, looks for a number in it and stores what it finds. -/
theorem result_textToNumber {args : Entries Value} {intext numvar : String}
    (h : TextToNumberGiven args intext numvar) {c : StepContext} {w : Workspace} {t : SymbolTable}
    {v : Value} (htext : w.symbols.evaluate intext = (t, .ok v)) :
    (textToNumber args).result c w =
      match numberIn? v.display with
      | some x => (StepM.store numvar x).result c { w with symbols := t }
      | none => (.error (.noNumberIn v.display), { w with symbols := t }) := by
  obtain ⟨r, hr, rfl, rfl⟩ := h
  have hread : (StepM.arguments [.text "intext", .text "numvar"] args).result c w = (.ok r, w) := by
    unfold StepM.arguments
    rw [hr]
    rfl
  have hevaluate : (StepM.evaluate (r.text "intext")).result c w =
      (.ok v, { w with symbols := t }) := StepM.result_withSymbols_of_ok htext
  unfold textToNumber
  rw [StepM.result_bind_of_ok hread, StepM.result_bind_of_ok hevaluate]
  dsimp only
  cases numberIn? v.display <;> rfl

/-- Evaluation changes the value of no name: what it binds is null, as what is not bound. -/
theorem SymbolTable.value_of_evaluate {t t' : SymbolTable} {source : String}
    {r : Except ExprError Value} (h : t.evaluate source = (t', r)) :
    t'.missionVars = t.missionVars ∧ ∀ name, t'.value name = t.value name := by
  unfold evaluate at h
  split at h
  · cases h
    exact ⟨rfl, fun _ => rfl⟩
  · cases h
    refine ⟨rfl, fun name => ?_⟩
    unfold value
    rw [get?_declareMissing]
    split
    · next hmissing =>
      rw [hmissing.2]
      rfl
    · rfl

/-- No number is found exactly if the first word without its marks is no numeral; then the step fails
and every name has the value it had. An integer is found exactly if that numeral is an integer of a
word and there is no percent sign, and a finite real, a hundredth with a percent sign, exactly if it
is another numeral in range. Out of range, and for infinity and what is no number, null is found. -/
theorem number_in_text (text : String) :
    (numberIn? text = none ↔
      ∀ word, Text.FirstWord text.toList word → ∀ x, ¬RealText (bare word) x) ∧
    (∀ word, Text.FirstWord text.toList word →
      (∀ n, numberIn? text = some (.int n) ↔
        '%' ∉ word ∧ IntText (bare word) n ∧ Value.IsInt64 n) ∧
      (∀ f, numberIn? text = some (.number (.real f)) ↔
        ('%' ∈ word ∨ ∀ n, IntText (bare word) n → ¬Value.IsInt64 n) ∧
          ∃ x, RealText (bare word) x ∧
            (if '%' ∈ word then x / .ofInt 100 else x) = .finite f) ∧
      (numberIn? text = some .null ↔ Unbounded (bare word)) ∧
      ∀ v, numberIn? text = some v → v = .null ∨ ∃ x, v = .number x) ∧
    ∀ args intext numvar c w t v, TextToNumberGiven args intext numvar →
      w.symbols.evaluate intext = (t, .ok v) → v.display = text →
        (numberIn? text = none →
          (textToNumber args).result c w =
            (.error (.noNumberIn text), { w with symbols := t }) ∧
          w.symbols.Keeps t ∧ t.missionVars = w.symbols.missionVars ∧
          ∀ name, t.value name = w.symbols.value name) ∧
        ∀ x, numberIn? text = some x →
          (textToNumber args).result c w =
            (StepM.store numvar x).result c { w with symbols := t } := by
  refine ⟨numberIn?_eq_none_iff, fun word hword => ⟨fun n => numberIn?_eq_int_iff hword, fun f => ?_,
    numberIn?_eq_null_iff hword, fun v hv => ?_⟩, ?_⟩
  · rw [numberIn?_eq_real_iff hword, forall_not_countsWhole]
    rfl
  · exact null_or_number hword hv
  · rintro args intext numvar c w t v hgiven htext rfl
    rw [result_textToNumber hgiven htext]
    refine ⟨fun hnone => ?_, fun x hx => ?_⟩
    · rw [hnone]
      exact ⟨rfl, SymbolTable.keeps_of_evaluate htext, SymbolTable.value_of_evaluate htext⟩
    · rw [hx]

/-- The arguments of a step that reads `x` and writes to `n`. -/
def priceArgs : Entries Value := [("intext", .text "x"), ("numvar", .text "n")]

/-- A workspace where `x` is this text and `n` is five. -/
def priced (text : String) : Workspace := .initially [("x", .text text), ("n", .int 5)]

theorem number_in_text_price :
    (Text.FirstWord "$1,299 total".toList ['$', '1', ',', '2', '9', '9'] ∧
      numberIn? "$1,299 total" = some (.int 1299)) ∧
    numberIn? "n/a" = none ∧
      (textToNumber priceArgs).result ⟨.usual, 0⟩ (priced "n/a") =
        (.error (.noNumberIn "n/a"), priced "n/a") := by
  have hfirst : Text.FirstWord "$1,299 total".toList ['$', '1', ',', '2', '9', '9'] :=
    ⟨[], [' ', 't', 'o', 't', 'a', 'l'], by simp, by simp, by simp, by simp [Text.isBlank],
      by simp [Text.isBlank]⟩
  have hnone : numberIn? "n/a" = none := by
    simp [numberIn?, Text.words, Text.wordsFrom, Text.isBlank, readInt64?, readReal?, splitSign,
      readDigits?, readDecimal?]
  have hgiven : TextToNumberGiven priceArgs "x" "n" := ⟨_, rfl, rfl, rfl⟩
  have htext : (priced "n/a").symbols.evaluate "x" =
      ((priced "n/a").symbols, .ok (.text "n/a")) := by cbv
  have hdigits : IntText (bare ['$', '1', ',', '2', '9', '9']) 1299 :=
    signedDigits?_eq_some.1 (by cbv)
  obtain ⟨-, hreads, -⟩ := number_in_text "$1,299 total"
  refine ⟨⟨hfirst, ((hreads _ hfirst).1 1299).2 ⟨by decide, hdigits, by decide⟩⟩, hnone, ?_⟩
  exact (((number_in_text "n/a").2.2 _ _ _ _ _ _ _ hgiven htext rfl).1 hnone).1

theorem not_number_in_text : ¬∀ text v, numberIn? text = some v → ∃ x, v = .number x := by
  intro h
  have hinf : numberIn? "inf" = some .null := by cbv
  obtain ⟨x, hx⟩ := h _ _ hinf
  cases hx

end Deskhand
