import Mathlib
import Deskhand.Expr.Source
import Deskhand.Program.Code
import Deskhand.Proofs.Language

/-!
# Identifiers

A word of letters, digits and underscores that has no meaning of its own is read as one name, and as
a target it is the variable of that name (`Expr.readTarget_identifier`).
-/

namespace Deskhand

namespace Expr

/-- Whether a word may go on with this character. -/
def ContinuesWord (c : Char) : Prop := Text.isAlphanumeric c = true ∨ c = '_'

/-- A word of letters, numerals and underscores that is a name. -/
structure IsIdentifier (name : String) : Prop where
  shape : ∃ c cs, name.toList = c :: cs ∧ startsWord c = true ∧ ∀ d ∈ cs, ContinuesWord d
  word : Token.ofWord name = .name name

/-! ## Characters of words -/

theorem range_of_startsWord {c : Char} (h : startsWord c = true) : 58 ≤ c.toNat ∧ c.toNat < 128 := by
  simp only [startsWord, Bool.or_eq_true, Bool.and_eq_true, decide_eq_true_eq, beq_iff_eq,
    Char.le_def, UInt32.le_iff_toNat_le] at h
  rcases h with (⟨hlo, hhi⟩ | ⟨hlo, hhi⟩) | rfl
  · change 97 ≤ c.toNat at hlo
    change c.toNat ≤ 122 at hhi
    omega
  · change 65 ≤ c.toNat at hlo
    change c.toNat ≤ 90 at hhi
    omega
  · decide

theorem range_of_wordChar {c : Char} (h : c.isAlphanum = true ∨ c = '_') :
    33 ≤ c.toNat ∧ c.toNat < 128 := by
  simp only [Char.isAlphanum, Char.isAlpha, Char.isUpper, Char.isLower, Char.isDigit,
    Bool.or_eq_true, Bool.and_eq_true, decide_eq_true_eq, UInt32.le_iff_toNat_le] at h
  rcases h with ((⟨hlo, hhi⟩ | ⟨hlo, hhi⟩) | ⟨hlo, hhi⟩) | rfl
  · change 65 ≤ c.toNat at hlo
    change c.toNat ≤ 90 at hhi
    omega
  · change 97 ≤ c.toNat at hlo
    change c.toNat ≤ 122 at hhi
    omega
  · change 48 ≤ c.toNat at hlo
    change c.toNat ≤ 57 at hhi
    omega
  · decide

theorem plainCharacter_of_ascii {c : Char} (h : c.toNat < 128) : plainCharacter c = c := by
  unfold plainCharacter
  split
  all_goals first
    | rfl
    | exact absurd h (by decide)

theorem not_isBlank_of_ascii {c : Char} (hlo : 33 ≤ c.toNat) (hhi : c.toNat < 128) :
    Text.isBlank c = false := by
  simp only [Text.isBlank, Bool.or_eq_false_iff, Bool.and_eq_false_iff, beq_eq_false_iff_ne,
    decide_eq_false_iff_not]
  omega

/-- White space and curly quotes: what is trimmed off or read as another character, outside ASCII. -/
def wideBlanksAndQuotes : List Nat :=
  [0x85, 0xA0, 0x1680, 0x2000, 0x2001, 0x2002, 0x2003, 0x2004, 0x2005, 0x2006, 0x2007, 0x2008,
    0x2009, 0x200A, 0x2018, 0x2019, 0x201C, 0x201D, 0x2028, 0x2029, 0x202F, 0x205F, 0x3000]

theorem mem_wide_of_isBlank {c : Char} (hc : ¬c.toNat < 128) (h : Text.isBlank c = true) :
    c.toNat ∈ wideBlanksAndQuotes := by
  simp only [Text.isBlank, Bool.or_eq_true, Bool.and_eq_true, beq_iff_eq, decide_eq_true_eq] at h
  simp only [wideBlanksAndQuotes, List.mem_cons, List.not_mem_nil, or_false]
  omega

theorem mem_wide_of_plainCharacter {c : Char} (h : plainCharacter c ≠ c) :
    c.toNat ∈ wideBlanksAndQuotes := by
  unfold plainCharacter at h
  split at h
  case h_8 => exact absurd rfl h
  all_goals decide

theorem not_letter_of_wide : ∀ n ∈ wideBlanksAndQuotes,
    Text.inBounds Text.alphanumericBounds n = false := by
  have hlist : ∀ n, Text.inBounds Text.alphanumericBounds n = Text.alphanumericBounds.toList.foldl
      (fun inside b => if b ≤ n then !inside else inside) false :=
    fun _ => (Array.foldl_toList ..).symm
  simp only [hlist]
  decide +kernel

/-- What continues a word is read as itself, and is not trimmed off. -/
theorem ContinuesWord.plain {c : Char} (h : ContinuesWord c) :
    Text.isBlank c = false ∧ plainCharacter c = c := by
  by_cases hascii : c.toNat < 128
  · have hword : c.isAlphanum = true ∨ c = '_' := by
      unfold ContinuesWord Text.isAlphanumeric at h
      rwa [if_pos hascii] at h
    exact ⟨not_isBlank_of_ascii (range_of_wordChar hword).1 hascii, plainCharacter_of_ascii hascii⟩
  · have hletter : c.toNat ∉ wideBlanksAndQuotes := by
      intro hwide
      rcases h with h | rfl
      · unfold Text.isAlphanumeric at h
        rw [if_neg hascii, not_letter_of_wide _ hwide] at h
        cases h
      · exact hascii (by decide)
    constructor
    · exact Bool.eq_false_iff.2 fun hblank => hletter (mem_wide_of_isBlank hascii hblank)
    · exact by_contra fun hne => hletter (mem_wide_of_plainCharacter hne)

theorem plain_of_startsWord {c : Char} (h : startsWord c = true) :
    Text.isBlank c = false ∧ plainCharacter c = c := by
  obtain ⟨hlo, hhi⟩ := range_of_startsWord h
  exact ⟨not_isBlank_of_ascii (by omega) hhi, plainCharacter_of_ascii hhi⟩

theorem trimChars_of_not_blank {cs : List Char} (h : ∀ c ∈ cs, Text.isBlank c = false) :
    Text.trimChars cs = cs := by
  have hdrop : ∀ ds : List Char, (∀ c ∈ ds, Text.isBlank c = false) →
      ds.dropWhile Text.isBlank = ds := by
    intro ds hds
    cases ds with
    | nil => rfl
    | cons d ds => rw [List.dropWhile_cons_of_neg (by rw [hds d List.mem_cons_self]; nofun)]
  unfold Text.trimChars Text.dropBlanks Text.dropEndBlanks
  rw [hdrop cs h, hdrop _ fun c hc => h c (List.mem_reverse.1 hc), List.reverse_reverse]

/-! ## Reading a word -/

/-- What may follow a token: a space, or nothing. -/
def Ends (rest : List Char) : Prop := ∀ c ∈ rest.head?, c = ' '

theorem not_continuesWord_space : ¬ContinuesWord ' ' := by
  unfold ContinuesWord
  decide

theorem width_of_ascii {c : Char} (h : c.toNat < 128) : width c = 1 := by
  unfold width
  rw [Char.utf8Size_eq_one_iff, UInt32.le_iff_toNat_le]
  exact Nat.le_of_lt_succ h

theorem isDigit_iff {c : Char} : c.isDigit = true ↔ 48 ≤ c.toNat ∧ c.toNat ≤ 57 := by
  simp only [Char.isDigit, Bool.and_eq_true, decide_eq_true_eq, UInt32.le_iff_toNat_le]
  rfl

theorem word_append (acc : List Char) (pos : Nat) {cs rest : List Char}
    (h : ∀ d ∈ cs, ContinuesWord d) (hrest : Ends rest) :
    word acc pos (cs ++ rest) = ⟨cs.reverse ++ acc, pos + byteLength cs, rest⟩ := by
  induction cs generalizing acc pos with
  | nil =>
    cases rest with
    | nil => rfl
    | cons d rest =>
      obtain rfl := hrest d rfl
      exact if_neg not_continuesWord_space
  | cons d cs ih =>
    obtain ⟨hd, hcs⟩ := List.forall_mem_cons.1 h
    rw [List.cons_append, word, if_pos (c := Text.isAlphanumeric d = true ∨ d = '_') hd, ih _ _ hcs,
      List.reverse_cons, List.append_assoc, byteLength, Nat.add_assoc]
    rfl

/-- A word is read to its end. -/
theorem scan_word (depth pos : Nat) {c : Char} {cs rest : List Char} (hc : startsWord c = true)
    (hcs : ∀ d ∈ cs, ContinuesWord d) (hrest : Ends rest) :
    ∃ s : Scan (cs ++ rest), scan depth c pos (cs ++ rest) = .ok s ∧
      s.token = some (.ofWord (String.ofList (c :: cs))) ∧
      s.finish = pos + byteLength (c :: cs) ∧ s.rest.1 = rest := by
  obtain ⟨hlo, hhi⟩ := range_of_startsWord hc
  have hne : ∀ d : Char, d.toNat < 58 → c ≠ d := by
    rintro d hd rfl
    omega
  have hdigit : ¬c.isDigit := by
    rw [isDigit_iff]
    omega
  have hword := word_append [c] (pos + 1) hcs hrest
  unfold scan
  rw [if_neg (by simp [hne]), if_neg (hne _ (by decide)), if_neg hdigit, if_pos hc]
  refine ⟨_, rfl, ?_, ?_, congrArg Lexeme.rest hword⟩
  · change some (Token.ofWord (String.ofList (word [c] (pos + 1) (cs ++ rest)).value.reverse)) = _
    rw [hword]
    simp
  · refine (congrArg Lexeme.finish hword).trans ?_
    rw [byteLength, width_of_ascii hhi, Nat.add_assoc]

theorem tokensFrom_nil (depth pos : Nat) : tokensFrom depth pos [] = .ok [] := by
  rw [tokensFrom]

/-- What a text begins with may be a token, and stands in front of the tokens of the rest. -/
theorem tokensFrom_of_scan {depth pos : Nat} {c : Char} {cs : List Char} {s : Scan cs}
    {more : List Located} (h : scan depth c pos cs = .ok s)
    (hmore : tokensFrom (depthAfter depth s.token) s.finish s.rest.1 = .ok more) :
    tokensFrom depth pos (c :: cs) = .ok ((s.token.map fun t => ⟨t, pos⟩).toList ++ more) := by
  rw [tokensFrom, h]
  dsimp only
  rw [hmore]
  cases s.token <;> rfl

theorem tokens_word {c : Char} {cs : List Char} (hc : startsWord c = true)
    (hcs : ∀ d ∈ cs, ContinuesWord d) :
    tokens (c :: cs) = .ok [⟨.ofWord (String.ofList (c :: cs)), 0⟩] := by
  have hscan := scan_word 0 0 hc hcs (show Ends [] by nofun)
  rw [List.append_nil] at hscan
  obtain ⟨s, hs, htoken, -, hrest⟩ := hscan
  have hnone : tokensFrom (depthAfter 0 s.token) s.finish s.rest.1 = .ok [] := by
    rw [hrest]
    exact tokensFrom_nil _ _
  have htokens := tokensFrom_of_scan hs hnone
  rw [htoken] at htokens
  exact htokens

theorem parseExpression_name (finish offset : Nat) (name : String) :
    parseExpression finish [⟨.name name, offset⟩] = .ok (.name name) :=
  parseExpression_eq_ok.2 ⟨[⟨.name name, offset⟩], [], by simp, by simp, derives_name name offset⟩

/-- An expression ends behind a name that another one follows. -/
theorem parseExpression_names (finish p q : Nat) {first second : String} (h : second ≠ "if")
    (more : List Located) :
    parseExpression finish (⟨.name first, p⟩ :: ⟨.name second, q⟩ :: more) =
      .error (.syntaxFault q .trailingInput) := by
  have hstops : Stops 6 (⟨.name second, q⟩ :: more) := by
    rw [stops_cons]
    change 6 < if second = "if" then 6 else 7
    rw [if_neg h]
    decide
  have hname : Derives false .expression [⟨.name first, p⟩] (.name first) := derives_name first p
  obtain ⟨hshorter, hread⟩ := hname.readable finish _ hstops
  change parseExpression finish ([⟨.name first, p⟩] ++ ⟨.name second, q⟩ :: more) = _
  unfold parseExpression
  rw [hread]
  rfl

namespace IsIdentifier

variable {name : String}

theorem plain (h : IsIdentifier name) :
    ∀ c ∈ name.toList, Text.isBlank c = false ∧ plainCharacter c = c := by
  obtain ⟨c, cs, hname, hc, hcs⟩ := h.shape
  rw [hname]
  exact List.forall_mem_cons.2 ⟨plain_of_startsWord hc, fun d hd => (hcs d hd).plain⟩

theorem trimChars_eq (h : IsIdentifier name) : Text.trimChars name.toList = name.toList :=
  trimChars_of_not_blank fun c hc => (h.plain c hc).1

/-- Nothing is trimmed off a word. -/
theorem trim_eq (h : IsIdentifier name) : Text.trim name = name := by
  unfold Text.trim
  rw [h.trimChars_eq, String.ofList_toList]

theorem tokens_eq (h : IsIdentifier name) : tokens (normalize name) = .ok [⟨.name name, 0⟩] := by
  have hplain : name.toList.map plainCharacter = name.toList :=
    (List.map_congr_left fun c hc => (h.plain c hc).2).trans (List.map_id _)
  have hnormal : normalize name = name.toList := by
    unfold normalize
    rw [hplain, h.trimChars_eq]
  obtain ⟨c, cs, hname, hc, hcs⟩ := h.shape
  rw [hnormal, hname, tokens_word hc hcs, ← hname, String.ofList_toList, h.word]

end IsIdentifier

/-- The words that are tokens of their own. -/
def reservedWords : List String :=
  ["True", "true", "False", "false", "None", "null", "and", "or", "not", "in", "is"]

theorem ofWord_eq_name {word : String} (h : word ∉ reservedWords) :
    Token.ofWord word = .name word := by
  unfold Token.ofWord
  split
  case h_12 => rfl
  all_goals exact absurd (by decide) h

/-- No word with an underscore is a token of its own. -/
theorem ofWord_of_underscore {word : String} (h : '_' ∈ word.toList) :
    Token.ofWord word = .name word := by
  have hplain : ∀ w ∈ reservedWords, '_' ∉ w.toList := by decide
  exact ofWord_eq_name fun hmem => hplain word hmem h

theorem ContinuesWord.of_ascii {d : Char} (h : d.isAlphanum = true ∨ d = '_') :
    ContinuesWord d := by
  unfold ContinuesWord Text.isAlphanumeric
  rwa [if_pos (range_of_wordChar h).2]

theorem continuesWord_of_toString {n : Nat} {d : Char} (h : d ∈ (toString n).toList) :
    ContinuesWord d := by
  rw [Nat.toString_eq_ofList_toDigits, String.toList_ofList] at h
  have hdigit := Nat.isDigit_of_mem_toDigits (by decide) (by decide) h
  exact .of_ascii (.inl (by simp [Char.isAlphanum, hdigit]))

/-- The name that the counter of a loop gets if it is given none is an identifier. -/
theorem isIdentifier_counterName {document : Nat} {given : String} {s : RawStep}
    (h : Text.trim given = "") : IsIdentifier (s.counterName document given) := by
  have hname : (s.counterName document given).toList =
      'l' :: 'c' :: '_' :: ((toString document).toList ++ '_' :: (toString s.number).toList) := by
    unfold RawStep.counterName
    dsimp only
    rw [if_pos h]
    simp [String.toList_append]
    rfl
  refine ⟨⟨_, _, hname, rfl, fun d hd => ?_⟩, ofWord_of_underscore (by rw [hname]; simp)⟩
  simp only [List.mem_cons, List.mem_append] at hd
  rcases hd with rfl | rfl | hd | rfl | hd
  · exact .of_ascii (by decide)
  · exact .of_ascii (by decide)
  · exact continuesWord_of_toString hd
  · exact .of_ascii (by decide)
  · exact continuesWord_of_toString hd

/-- An identifier is the expression for its variable. -/
theorem parse_identifier {name : String} (h : IsIdentifier name) : parse name = .ok (.name name) := by
  unfold parse readWith
  dsimp only
  rw [h.tokens_eq]
  exact parseExpression_name _ _ _

/-- As a target, an identifier is its variable. -/
theorem readTarget_identifier {name : String} (h : IsIdentifier name) :
    readTarget name = .ok ⟨name, []⟩ := by
  unfold readTarget readWith
  dsimp only
  rw [h.tokens_eq]
  change parseTarget _ [⟨.name name, 0⟩] = _
  unfold parseTarget
  rw [parseExpression_name]
  rfl

end Expr

end Deskhand
