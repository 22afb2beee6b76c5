import Deskhand.Proofs.Comparison
import Deskhand.Proofs.TargetNames
import Deskhand.Proofs.Writing

/-!
# Texts and their literals

A text in quotes, with a backslash before each quote of that kind and each backslash, is a literal
(`Expr.literal`). Before a source is read, though, its typographic quotes and spaces are made plain,
inside of quotes as well. A text without them is the value of its literal; one that has a typographic
quote of the kind that encloses it has no literal, since it ends there (`Expr.literal_evaluates`).
-/

namespace Deskhand.Expr

/-- The source that puts a text into quotes. -/
def literal (quote : Char) (s : String) : String :=
  String.ofList (quote :: (escape quote s.toList ++ [quote]))

/-- The source that compares two others. -/
def equation (left right : String) : String := left ++ " == " ++ right

/-! ## Typographic characters -/

/-- The quotes that are read as a plain one. -/
def curly (quote : Char) : List Char :=
  if quote = '"' then ['\u201C', '\u201D'] else ['\u2018', '\u2019']

/-- The quotes and spaces that are read as plain ones. -/
def typographic : List Char :=
  curly '"' ++ curly '\'' ++ ['\u00A0', '\u2009', '\u202F']

/-- A text with plain quotes and spaces. -/
def plainText (s : String) : String := String.ofList (s.toList.map plainCharacter)

/-- No character of the text is read as the quote but that quote itself. -/
def Quotable (quote : Char) (s : String) : Prop := ∀ c ∈ s.toList, c ∉ curly quote

section Characters

variable {quote c : Char}

theorem plainCharacter_eq_self_iff : plainCharacter c = c ↔ c ∉ typographic := by
  unfold plainCharacter
  split
  case h_8 h₁ h₂ h₃ h₄ h₅ h₆ h₇ =>
    simpa [typographic, curly] using ⟨h₃, h₄, h₁, h₂, h₅, h₆, h₇⟩
  all_goals decide

theorem plainCharacter_eq_iff (hquote : quote = '"' ∨ quote = '\'') :
    plainCharacter c = quote ↔ c = quote ∨ c ∈ curly quote := by
  unfold plainCharacter
  split
  case h_8 h₁ h₂ h₃ h₄ h₅ h₆ h₇ =>
    have hcurly : c ∉ curly quote := by
      rcases hquote with rfl | rfl
      · simpa [curly] using ⟨h₃, h₄⟩
      · simpa [curly] using ⟨h₁, h₂⟩
    exact ⟨.inl, fun h => h.resolve_right hcurly⟩
  all_goals rcases hquote with rfl | rfl <;> decide

theorem plainCharacter_eq_backslash_iff : plainCharacter c = '\\' ↔ c = '\\' := by
  unfold plainCharacter
  split
  case h_8 => exact Iff.rfl
  all_goals decide

theorem curly_subset_typographic (hquote : quote = '"' ∨ quote = '\'') :
    curly quote ⊆ typographic := by
  rcases hquote with rfl | rfl <;> decide

theorem plain_quote (hquote : quote = '"' ∨ quote = '\'') :
    plainCharacter quote = quote ∧ Text.isBlank quote = false := by
  rcases hquote with rfl | rfl <;> decide

end Characters

theorem plainText_eq_self {s : String} (h : ∀ c ∈ s.toList, c ∉ typographic) : plainText s = s := by
  have hmap : s.toList.map plainCharacter = s.toList :=
    (List.map_congr_left fun c hc => plainCharacter_eq_self_iff.2 (h c hc)).trans (List.map_id _)
  unfold plainText
  rw [hmap, String.ofList_toList]

section Sources

variable {quote : Char} (hquote : quote = '"' ∨ quote = '\'') {s t : String}

include hquote

/-! ## What is read for a literal -/

/-- Making characters plain leaves the backslashes where they belong, if none of them becomes the
quote. -/
theorem map_escape {cs : List Char} (h : ∀ c ∈ cs, c ∉ curly quote) :
    (escape quote cs).map plainCharacter = escape quote (cs.map plainCharacter) := by
  induction cs with
  | nil => rfl
  | cons c cs ih =>
    obtain ⟨hc, hcs⟩ := List.forall_mem_cons.1 h
    have hsame : plainCharacter c = quote ∨ plainCharacter c = '\\' ↔ c = quote ∨ c = '\\' := by
      rw [plainCharacter_eq_iff hquote, plainCharacter_eq_backslash_iff, or_iff_left hc]
    rw [List.map_cons, escape, escape]
    simp only [hsame]
    split
    · rw [List.map_cons, List.map_cons, ih hcs, show plainCharacter '\\' = '\\' by decide]
    · rw [List.map_cons, ih hcs]

theorem escape_curly {c : Char} (hc : c ∈ curly quote) (cs : List Char) :
    escape quote (c :: cs) = c :: escape quote cs := by
  refine if_neg ?_
  rintro (rfl | rfl)
  · revert hc
    rcases hquote with rfl | rfl <;> decide
  · revert hc
    rcases hquote with rfl | rfl <;> decide

theorem normalize_literal (s : String) : normalize (literal quote s) =
    quote :: ((escape quote s.toList).map plainCharacter ++ [quote]) := by
  obtain ⟨hplain, hblank⟩ := plain_quote hquote
  unfold normalize literal
  rw [String.toList_ofList, List.map_cons, List.map_append, List.map_singleton, hplain]
  refine Text.trimChars_of_ends ?_ ?_
  · rintro c ⟨⟩
    exact hblank
  · rw [← List.cons_append, List.getLast?_concat]
    rintro c ⟨⟩
    exact hblank

/-- A text without a curly quote of the kind that encloses it is read as one token. -/
theorem tokens_literal (h : Quotable quote s) :
    tokens (normalize (literal quote s)) = .ok [⟨.text (plainText s), 0⟩] := by
  have hread := readAs_text hquote (plainText s) 0 0 [] [] nofun (tokensFrom_nil _ _)
  rw [List.append_nil, plainText, String.toList_ofList] at hread
  rw [normalize_literal hquote, map_escape hquote h]
  exact hread

theorem parse_literal (h : Quotable quote s) : parse (literal quote s) = .ok (.text (plainText s)) := by
  unfold parse readWith
  dsimp only
  rw [tokens_literal hquote h]
  exact parseExpression_eq_ok.2 ⟨[⟨.text (plainText s), 0⟩], [], by simp, by simp,
    Derives.up (.postfixed (.factor (.token rfl)))⟩

end Sources

/-! ## Texts that end too early -/

/-- What passes without a token, and what ends a statement. -/
def separators : List Char := [' ', '\t', '\r', '\n', ';']

theorem ofWord_ne_semicolon (w : String) : Token.ofWord w ≠ .semicolon := by
  unfold Token.ofWord
  split <;> nofun

theorem ofNumeral_ne_semicolon (reversed : List Char) (real : Bool) :
    ofNumeral reversed real ≠ .ok .semicolon := by
  unfold ofNumeral
  dsimp only
  split <;> split <;> nofun

theorem eq_semicolon_of_sign {c : Char} (h : sign? c = some .semicolon) : c = ';' := by
  unfold sign? at h
  split at h <;> cases h
  rfl

theorem longSign_ne_semicolon {c d : Char} {long short : Token}
    (h : longSign? c = some (d, long, short)) : long ≠ .semicolon ∧ short ≠ .semicolon := by
  unfold longSign? at h
  split at h <;> cases h <;> exact ⟨nofun, nofun⟩

theorem doubleSign_ne_semicolon {c : Char} {whole : String} {t : Token}
    (h : doubleSign? c = some (whole, t)) : t ≠ .semicolon := by
  unfold doubleSign? at h
  split at h <;> cases h <;> nofun

/-- If there is no token, or it is a semicolon, then one separator was read. -/
theorem separator_of_scan {depth pos : Nat} {c : Char} {cs : List Char} {s : Scan cs}
    (h : scan depth c pos cs = .ok s) (htoken : ∀ t, s.token = some t → t = .semicolon) :
    c ∈ separators ∧ s.rest.1 = cs := by
  unfold scan at h
  split at h
  · next hblank =>
    cases h
    refine ⟨?_, rfl⟩
    rcases hblank with rfl | rfl | rfl <;> decide
  split at h
  · next hbreak =>
    cases h
    exact ⟨hbreak ▸ by decide, rfl⟩
  split at h
  · dsimp only at h
    cases hnum : ofNumeral (numeral [c] false (pos + 1) cs).value.1
        (numeral [c] false (pos + 1) cs).value.2 with
    | error x =>
      rw [hnum] at h
      cases h
    | ok t =>
      rw [hnum] at h
      cases h
      exact absurd (hnum.trans (congrArg Except.ok (htoken t rfl))) (ofNumeral_ne_semicolon _ _)
  split at h
  · cases h
    exact absurd (htoken _ rfl) (ofWord_ne_semicolon _)
  split at h
  · split at h
    · cases h
      cases htoken _ rfl
    · cases h
  split at h
  · next hsign =>
    cases h
    rw [htoken _ rfl] at hsign
    obtain rfl := eq_semicolon_of_sign hsign
    exact ⟨by decide, rfl⟩
  · next hlong _ =>
    obtain ⟨hne, hne'⟩ := longSign_ne_semicolon hlong
    split at h
    · split at h <;> cases h
      · exact absurd (htoken _ rfl) hne
      · exact absurd (htoken _ rfl) hne'
    · cases h
      exact absurd (htoken _ rfl) hne'
  · next hdouble _ _ =>
    split at h
    · split at h <;> cases h
      exact absurd (htoken _ rfl) (doubleSign_ne_semicolon hdouble)
    · cases h
  · cases h

/-- What yields nothing but semicolons is made of separators. -/
theorem separators_of_semicolons {depth pos : Nat} {cs : List Char} {ts : List Located}
    (h : tokensFrom depth pos cs = .ok ts) (hts : ∀ l ∈ ts, l.token = .semicolon) :
    ∀ c ∈ cs, c ∈ separators := by
  fun_induction tokensFrom depth pos cs generalizing ts with
  | case1 => exact fun _ hc => absurd hc List.not_mem_nil
  | case2 => cases h
  | case3 => cases h
  | case4 depth pos c cs s hs more hmore t ht ih =>
    cases h
    obtain ⟨hsemicolon, hrest⟩ := List.forall_mem_cons.1 hts
    obtain ⟨hc, hcs⟩ := separator_of_scan hs fun t' ht' => by
      rw [ht] at ht'
      exact Option.some.inj ht' ▸ hsemicolon
    exact List.forall_mem_cons.2 ⟨hc, hcs ▸ ih hmore hrest⟩
  | case5 depth pos c cs s hs more hmore ht ih =>
    cases h
    obtain ⟨hc, hcs⟩ := separator_of_scan hs fun t' ht' => by
      rw [ht] at ht'
      cases ht'
    exact List.forall_mem_cons.2 ⟨hc, hcs ▸ ih hmore hts⟩

/-- What denotes a text without more ado is one token, or begins with a parenthesis or a plus. -/
theorem Derives.single_of_text {strict : Bool} {part : Part} {us : List Located} {y : part.Yield}
    (h : Derives strict part us y) : part.Yields (fun e => (∃ t, e = .text t) →
      us.length = 1 ∨ front us = some .openParen ∨ front us = some .add) y := by
  induction h with
  | plain _ ih | conjunction _ ih | negation _ ih | comparison _ ih | product _ ih | signed _ ih
  | postfixed _ ih | factor _ ih => exact ih
  | token => exact fun _ => .inl rfl
  | parens => exact fun _ => .inr (.inl rfl)
  | plus => exact fun _ => .inr (.inr rfl)
  | @compared us vs first links _ hlinks ih =>
    rintro ⟨t, ht⟩
    cases hlinks with
    | noLink =>
      rw [List.append_nil]
      exact ih ⟨t, ht⟩
    | link => cases ht
  | @minus us p e =>
    rintro ⟨t, ht⟩
    unfold negated at ht
    split at ht <;> cases ht
  | noLink | link | unbounded | bounded | noItem | lastItem | item | noEntry | lastEntry | entry =>
    trivial
  | _ =>
    rintro ⟨t, ht⟩
    cases ht

theorem exists_more_of_tokensFrom {depth pos : Nat} {c : Char} {cs : List Char} {s : Scan cs}
    {ts : List Located} (hs : scan depth c pos cs = .ok s)
    (h : tokensFrom depth pos (c :: cs) = .ok ts) :
    ∃ more, tokensFrom (depthAfter depth s.token) s.finish s.rest.1 = .ok more ∧
      ts = (s.token.map fun t => ⟨t, pos⟩).toList ++ more := by
  rw [tokensFrom, hs] at h
  dsimp only at h
  split at h
  · cases h
  · next more hmore =>
    refine ⟨more, hmore, ?_⟩
    split at h <;> next ht =>
      cases h
      rw [ht]
      rfl

theorem escape_append (quote : Char) (cs ds : List Char) :
    escape quote (cs ++ ds) = escape quote cs ++ escape quote ds := by
  induction cs with
  | nil => rfl
  | cons c cs ih =>
    rw [List.cons_append, escape, escape, ih]
    split <;> rfl

section Sources

variable {quote : Char} (hquote : quote = '"' ∨ quote = '\'') {s t : String}

include hquote

/-- What is read for a text with a curly quote of the kind that encloses it goes on behind the text in
front of that quote, and ends with a quote. -/
theorem exists_early_end (h : ¬Quotable quote s) : ∃ cs rest,
    normalize (literal quote s) = quote :: (escape quote cs ++ [quote] ++ (rest ++ [quote])) := by
  obtain ⟨c, hfirst⟩ : ∃ c, s.toList.find? (· ∈ curly quote) = some c := by
    rw [← Option.isSome_iff_exists, List.find?_isSome]
    simpa [Quotable] using h
  obtain ⟨hc, front, behind, hs, hfront⟩ := List.find?_eq_some_iff_append.1 hfirst
  have hc : c ∈ curly quote := by simpa using hc
  have hfront : ∀ d ∈ front, d ∉ curly quote := by simpa using hfront
  refine ⟨front.map plainCharacter, (escape quote behind).map plainCharacter, ?_⟩
  rw [normalize_literal hquote, hs, escape_append, escape_curly hquote hc, List.map_append,
    map_escape hquote hfront, List.map_cons, (plainCharacter_eq_iff hquote).2 (.inr hc)]
  simp

theorem parse_literal_ne_text (h : ¬Quotable quote s) : parse (literal quote s) ≠ .ok (.text t) := by
  obtain ⟨cs, rest, hnormal⟩ := exists_early_end hquote h
  intro hparse
  unfold parse readWith at hparse
  dsimp only at hparse
  rw [hnormal] at hparse
  obtain ⟨ts, hts, hparse⟩ := bind_eq_ok hparse
  obtain ⟨scanned, hscan, htoken, -, hbehind⟩ := scan_text hquote cs (rest ++ [quote]) 0 0
  obtain ⟨more, hmore, rfl⟩ := exists_more_of_tokensFrom hscan hts
  rw [htoken] at hparse
  rw [hbehind] at hmore
  -- The tokens of the expression are the first one and perhaps some of the others.
  obtain ⟨us, vs, hsplit, hvs, hus⟩ := parseExpression_eq_ok.1 hparse
  obtain ⟨first, hfirst, -⟩ := hus.begins (by decide)
  obtain ⟨p, us, rfl⟩ := front_eq_some.1 hfirst
  have hhead := (List.cons.inj hsplit).1
  have hothers : more = us ++ vs := (List.cons.inj hsplit).2
  obtain hlength | hopen | hplus := hus.single_of_text ⟨t, rfl⟩
  · obtain rfl : us = [] := List.length_eq_zero_iff.1 (Nat.succ.inj hlength)
    have hseparator : quote ∈ separators :=
      separators_of_semicolons hmore (hothers ▸ hvs) quote (by simp)
    revert hseparator
    rcases hquote with rfl | rfl <;> decide
  · cases hhead
    cases hopen
  · cases hhead
    cases hplus

end Sources

/-! ## Comparing with a variable -/

/-- The source is one token, and this is what it denotes. -/
structure Atom (source : String) (e : Expr) : Prop where
  written : ∃ t w, source.toList.map plainCharacter = w ∧ t.WrittenAs w ∧ ofToken? t = some e
  head : ∀ c ∈ source.toList.head?, Text.isBlank (plainCharacter c) = false
  last : ∀ c ∈ source.toList.getLast?, Text.isBlank (plainCharacter c) = false

theorem IsIdentifier.atom {name : String} (h : IsIdentifier name) : Atom name (.name name) where
  written := by
    refine ⟨.name name, name.toList, ?_, .name h, rfl⟩
    exact (List.map_congr_left fun c hc => (h.plain c hc).2).trans (List.map_id _)
  head c hc := by
    have hplain := h.plain c (List.mem_of_mem_head? hc)
    rw [hplain.2]
    exact hplain.1
  last c hc := by
    have hplain := h.plain c (List.mem_of_mem_getLast? hc)
    rw [hplain.2]
    exact hplain.1

theorem Quotable.atom {quote : Char} {s : String} (h : Quotable quote s)
    (hquote : quote = '"' ∨ quote = '\'') : Atom (literal quote s) (.text (plainText s)) := by
  obtain ⟨hplain, hblank⟩ := plain_quote hquote
  have hends : Text.isBlank (plainCharacter quote) = false := hplain.symm ▸ hblank
  unfold literal
  refine ⟨⟨.text (plainText s), _, rfl, ?_, rfl⟩, ?_, ?_⟩ <;> rw [String.toList_ofList]
  · have hwritten := Token.WrittenAs.text hquote (plainText s)
    rw [plainText, String.toList_ofList, ← map_escape hquote h] at hwritten
    rwa [List.map_cons, List.map_append, List.map_singleton, hplain]
  · rintro c ⟨⟩
    exact hends
  · rw [← List.cons_append, List.getLast?_concat]
    rintro c ⟨⟩
    exact hends

section Equations

variable {left right : String} {l r : Expr} {scope : Scope} {a b : Value}

/-- Between the sides of an equation stand a space, the sign and a space again. -/
theorem normalize_equation {w v : List Char} (hl : Atom left l) (hr : Atom right r)
    (hw : left.toList.map plainCharacter = w) (hv : right.toList.map plainCharacter = v)
    (hw' : w ≠ []) (hv' : v ≠ []) : normalize (equation left right) = spaced [w, "==".toList, v] := by
  have hsource : (equation left right).toList.map plainCharacter =
      w ++ ' ' :: ("==".toList ++ ' ' :: v) := by
    unfold equation
    rw [String.toList_append, String.toList_append, List.map_append, List.map_append, hw, hv,
      List.append_assoc]
    rfl
  have hspaced : spaced [w, "==".toList, v] = w ++ ' ' :: ("==".toList ++ ' ' :: v) := by
    rw [spaced_cons _ (List.cons_ne_nil _ _), spaced_cons _ (List.cons_ne_nil _ _), spaced_singleton]
  have hhead : ∀ c ∈ w.head?, Text.isBlank c = false := by
    rw [← hw, List.head?_map]
    rintro c hc
    obtain ⟨d, hd, rfl⟩ := Option.map_eq_some_iff.1 hc
    exact hl.head d hd
  have hlast : ∀ c ∈ v.getLast?, Text.isBlank c = false := by
    rw [← hv, List.getLast?_map]
    rintro c hc
    obtain ⟨d, hd, rfl⟩ := Option.map_eq_some_iff.1 hc
    exact hr.last d hd
  rw [hspaced]
  unfold normalize
  rw [hsource]
  refine Text.trimChars_of_ends ?_ ?_
  · rwa [List.head?_append_of_ne_nil _ hw']
  · have hsplit : w ++ ' ' :: ("==".toList ++ ' ' :: v) = (w ++ ' ' :: ("==".toList ++ [' '])) ++ v := by
      simp
    rwa [hsplit, List.getLast?_append_of_ne_nil _ hv']

/-- An equation of two tokens is a comparison of what they denote. -/
theorem parse_equation (hl : Atom left l) (hr : Atom right r) :
    parse (equation left right) = .ok (.compare l [(.equal, r)]) := by
  obtain ⟨t, w, hw, ht, htoken⟩ := hl.written
  obtain ⟨t', v, hv, ht', htoken'⟩ := hr.written
  have hforms : List.Forall₂ Token.WrittenAs [t, .equal, t'] [w, "==".toList, v] :=
    .cons ht (.cons (.spelling List.mem_cons_self) (.cons ht' .nil))
  have hatom : ∀ {t : Token} {e : Expr} (p : Nat), ofToken? t = some e →
      Derives false .sum [⟨t, p⟩] e := fun _ h =>
    .product (.signed (.postfixed (.factor (.token h))))
  have hderives : ∀ p q n, Derives false .expression [⟨t, p⟩, ⟨.equal, q⟩, ⟨t', n⟩]
      (.compare l [(.equal, r)]) := by
    intro p q n
    have hsign : [(⟨.equal, q⟩ : Located)].map Located.token = CompareOp.equal.tokens := rfl
    have hlinks := Derives.link hsign (hatom n htoken') .noLink
    exact .plain (.conjunction (.negation (.comparison (.compared (hatom p htoken) hlinks))))
  unfold parse readWith
  dsimp only
  rw [normalize_equation hl hr hw hv ht.readAs.ne_nil ht'.readAs.ne_nil, tokens,
    tokensFrom_spaced hforms, ok_bind]
  simp only [List.mapIdx_cons, List.mapIdx_nil]
  exact parseExpression_eq_ok.2 ⟨_, [], (List.append_nil _).symm, List.forall_mem_nil _, hderives _ _ _⟩

theorem eval_equation (hl : Atom left l) (hr : Atom right r) (ha : eval scope l = .ok a)
    (hb : eval scope r = .ok b) :
    evaluate (equation left right) scope = .ok (.bool (a.equal b)) := by
  unfold evaluate
  rw [parse_equation hl hr, ok_bind, eval, ha, ok_bind, evalChain, hb, ok_bind]
  change (do if (← Except.ok (a.equal b)) then _ else _) = _
  cases a.equal b <;> rfl

end Equations

theorem text_equal_iff {s : String} {v : Value} : (Value.text s).equal v = true ↔ v = .text s := by
  cases v with
  | text t =>
    change (s == t) = true ↔ _
    rw [beq_iff_eq, Value.text.injEq, eq_comm]
  | _ => exact ⟨nofun, nofun⟩

theorem equal_text_iff {s : String} {v : Value} : v.equal (.text s) = true ↔ v = .text s := by
  constructor
  · intro h
    cases Value.equal_iff_alike.1 h with
    | ranked _ hb => cases hb
    | same _ _ h =>
      cases v with
      | text t => rw [beq_iff_eq.1 h]
      | _ => cases h
  · rintro rfl
    exact text_equal_iff.2 rfl

/-! ## Literals -/

/-- A text without typographic characters is the value of its literal in every scope, and equals what
holds the same text. More generally, the literal of a text is read as a text exactly if no curly quote
of the kind around it is in the text, and then as the text with plain quotes and spaces. -/
theorem literal_evaluates {quote : Char} (hquote : quote = '"' ∨ quote = '\'') (s : String) :
    ((∀ c ∈ s.toList, c ∉ typographic) →
      (∀ scope, evaluate (literal quote s) scope = .ok (.text s)) ∧
      ∀ scope name, IsIdentifier name → scope name = some (.text s) →
        evaluate (equation (literal quote s) name) scope = .ok (.bool true) ∧
        evaluate (equation name (literal quote s)) scope = .ok (.bool true)) ∧
    (∀ t, parse (literal quote s) = .ok (.text t) ↔ Quotable quote s ∧ t = plainText s) ∧
    (Quotable quote s → ∀ scope name v, IsIdentifier name → scope name = some v →
      ∃ b, evaluate (equation (literal quote s) name) scope = .ok (.bool b) ∧
        evaluate (equation name (literal quote s)) scope = .ok (.bool b) ∧
        (b = true ↔ v = .text (plainText s))) := by
  have hcompare : Quotable quote s → ∀ scope name v, IsIdentifier name → scope name = some v →
      evaluate (equation (literal quote s) name) scope =
        .ok (.bool ((Value.text (plainText s)).equal v)) ∧
      evaluate (equation name (literal quote s)) scope =
        .ok (.bool (v.equal (.text (plainText s)))) := by
    intro h scope name v hname hv
    have hname' : eval scope (.name name) = .ok v := by
      rw [eval, hv]
    exact ⟨eval_equation (h.atom hquote) hname.atom rfl hname',
      eval_equation hname.atom (h.atom hquote) hname' rfl⟩
  refine ⟨fun h => ?_, fun t => ⟨fun hparse => ?_, ?_⟩, fun h scope name v hname hv => ?_⟩
  · have hquotable : Quotable quote s := fun c hc hcurly =>
      h c hc (curly_subset_typographic hquote hcurly)
    have hplain := plainText_eq_self h
    refine ⟨fun scope => ?_, fun scope name hname hv => ?_⟩
    · unfold evaluate
      rw [parse_literal hquote hquotable, hplain]
      rfl
    · obtain ⟨hleft, hright⟩ := hcompare hquotable scope name _ hname hv
      rw [hplain, text_equal_iff.2 rfl] at hleft hright
      exact ⟨hleft, hright⟩
  · by_cases hquotable : Quotable quote s
    · rw [parse_literal hquote hquotable] at hparse
      cases hparse
      exact ⟨hquotable, rfl⟩
    · exact absurd hparse (parse_literal_ne_text hquote hquotable)
  · rintro ⟨hquotable, rfl⟩
    exact parse_literal hquote hquotable
  · obtain ⟨hleft, hright⟩ := hcompare h scope name v hname hv
    refine ⟨_, hleft, ?_, text_equal_iff⟩
    rw [hright, Bool.eq_iff_iff.2 (equal_text_iff.trans text_equal_iff.symm)]

theorem literal_evaluates_said :
    (∀ c ∈ "say \"it's\"\\\n".toList, c ∉ typographic) ∧
    evaluate "'say \"it\\'s\"\\\\\n'" (fun _ => none) = .ok (.text "say \"it's\"\\\n") ∧
    IsIdentifier "x" ∧
    evaluate "'say \"it\\'s\"\\\\\n' == x" (fun _ => some (.text "say \"it's\"\\\n")) =
      .ok (.bool true) ∧
    Quotable '"' "it\u2019s" ∧ parse "\"it\u2019s\"" = .ok (.text "it's") ∧
    evaluate "\"it\u2019s\" == x" (fun _ => some (.text "it's")) = .ok (.bool true) := by
  have hquote : '\'' = '"' ∨ '\'' = '\'' := .inr rfl
  have hplain : ∀ c ∈ "say \"it's\"\\\n".toList, c ∉ typographic := by
    simp [typographic, curly]
  have hname : IsIdentifier "x" := ⟨⟨'x', [], rfl, rfl, nofun⟩, rfl⟩
  have hquotable : Quotable '"' "it\u2019s" := by
    simp [Quotable, curly]
  obtain ⟨hexact, -, -⟩ := literal_evaluates hquote "say \"it's\"\\\n"
  obtain ⟨hvalue, hequal⟩ := hexact hplain
  obtain ⟨-, hread, hcompare⟩ := literal_evaluates (.inl rfl) "it\u2019s"
  obtain ⟨b, hb, -, hsame⟩ := hcompare hquotable (fun _ => some (.text "it's")) "x" _ hname rfl
  rw [hsame.2 rfl] at hb
  exact ⟨hplain, hvalue _, hname, (hequal _ "x" hname rfl).1, hquotable,
    (hread "it's").2 ⟨hquotable, rfl⟩, hb⟩

/-- The apostrophe that word processors write becomes another character in a literal. -/
theorem not_literal_exact : ¬ ∀ quote, quote = '"' ∨ quote = '\'' → ∀ s scope,
    evaluate (literal quote s) scope = .ok (.text s) ∧
    ∀ name, IsIdentifier name → scope name = some (.text s) →
      evaluate (equation (literal quote s) name) scope = .ok (.bool true) := by
  intro h
  have hquotable : Quotable '"' "it\u2019s" := by
    simp [Quotable, curly]
  have hvalue := (h '"' (.inl rfl) "it\u2019s" fun _ => none).1
  unfold evaluate at hvalue
  rw [parse_literal (.inl rfl) hquotable] at hvalue
  have hsame : plainText "it\u2019s" = "it\u2019s" := Value.text.inj (Except.ok.inj hvalue)
  have hchars := congrArg String.toList hsame
  simp [plainText, plainCharacter] at hchars

end Deskhand.Expr
