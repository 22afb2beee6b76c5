import Deskhand.Proofs.Folding
import Deskhand.Proofs.Identifiers

/-!
# Writing tokens and reading them back

A token that can be written has a written form, and some have two (`Token.WrittenAs`): a text may stand in
either kind of quotes, and `and` may be written with two signs. Tokens written one after the other with
single spaces between them are read as these tokens, each with the byte at which its written form begins
(`Expr.tokens_read_back`).
-/

namespace Deskhand.Expr

/-! ## Written forms -/

/-- A backslash before each quote of the kind that encloses the text, and before each backslash. -/
def escape (quote : Char) : List Char → List Char
  | [] => []
  | c :: rest =>
    if c = quote ∨ c = '\\' then '\\' :: c :: escape quote rest else c :: escape quote rest

namespace Token

/-- The words and signs that a token has of its own. -/
def spellings : Token → List String
  | yes => ["True", "true"]
  | no => ["False", "false"]
  | nothing => ["None", "null"]
  | and => ["and", "&&"]
  | or => ["or", "||"]
  | not => ["not", "!"]
  | isIn => ["in"]
  | isSame => ["is"]
  | add => ["+"]
  | sub => ["-"]
  | mul => ["*"]
  | div => ["/"]
  | floorDiv => ["//"]
  | modulo => ["%"]
  | equal => ["=="]
  | notEqual => ["!="]
  | less => ["<"]
  | lessEqual => ["<="]
  | greater => [">"]
  | greaterEqual => [">="]
  | assign => ["="]
  | addAssign => ["+="]
  | subAssign => ["-="]
  | openParen => ["("]
  | closeParen => [")"]
  | openSquare => ["["]
  | closeSquare => ["]"]
  | openBrace => ["\x7b"]
  | closeBrace => ["\x7d"]
  | comma => [","]
  | colon => [":"]
  | dot => ["."]
  | semicolon => [";"]
  | int _ | real _ | text _ | name _ => []

/-- How a token is written. -/
inductive WrittenAs : Token → List Char → Prop
  | int {n : Nat} (h : (n : Int) ≤ Word.maxInt) : WrittenAs (.int n) (toString n).toList
  | name {s : String} (h : IsIdentifier s) : WrittenAs (.name s) s.toList
  | text {quote : Char} (h : quote = '"' ∨ quote = '\'') (s : String) :
      WrittenAs (.text s) (quote :: (escape quote s.toList ++ [quote]))
  | spelling {t : Token} {w : String} (h : w ∈ t.spellings) : WrittenAs t w.toList

/-- The tokens that can be written: no real numbers, no negative or long integers, and no names that are
read as something else. -/
def Writable : Token → Prop
  | int n => 0 ≤ n ∧ n ≤ Word.maxInt
  | real _ => False
  | name s => IsIdentifier s
  | _ => True

theorem Writable.exists_form {t : Token} (h : t.Writable) : ∃ w, t.WrittenAs w := by
  cases t with
  | int n =>
    obtain ⟨n, rfl⟩ := Int.eq_ofNat_of_zero_le h.1
    exact ⟨_, .int h.2⟩
  | real x => exact h.elim
  | text s => exact ⟨_, .text (.inl rfl) s⟩
  | name s => exact ⟨_, .name h⟩
  | _ => exact ⟨_, .spelling List.mem_cons_self⟩

end Token

/-! ## Reading one token -/

/-- This text is read as this token, whatever follows behind a space. -/
def ReadAs (w : List Char) (t : Token) : Prop :=
  ∀ depth pos rest more, Ends rest →
    tokensFrom (depthAfter depth (some t)) (pos + byteLength w) rest = .ok more →
    tokensFrom depth pos (w ++ rest) = .ok (⟨t, pos⟩ :: more)

theorem ReadAs.ne_nil {w : List Char} {t : Token} (h : ReadAs w t) : w ≠ [] := by
  rintro rfl
  have hread := h 0 0 [] [] nofun (tokensFrom_nil _ _)
  rw [List.append_nil, tokensFrom_nil] at hread
  cases hread

theorem readAs_of_scan {c : Char} {cs : List Char} {t : Token}
    (h : ∀ depth pos rest, Ends rest → ∃ s : Scan (cs ++ rest),
      scan depth c pos (cs ++ rest) = .ok s ∧ s.token = some t ∧
        s.finish = pos + byteLength (c :: cs) ∧ s.rest.1 = rest) : ReadAs (c :: cs) t := by
  intro depth pos rest more hrest hmore
  obtain ⟨s, hs, htoken, hfinish, hbehind⟩ := h depth pos rest hrest
  have hbehind' : tokensFrom (depthAfter depth s.token) s.finish s.rest.1 = .ok more := by
    rw [htoken, hfinish, hbehind]
    exact hmore
  have hread := tokensFrom_of_scan hs hbehind'
  rw [htoken] at hread
  exact hread

theorem byteLength_append (cs ds : List Char) :
    byteLength (cs ++ ds) = byteLength cs + byteLength ds := by
  induction cs with
  | nil => exact (Nat.zero_add _).symm
  | cons c cs ih => rw [List.cons_append, byteLength, ih, byteLength, Nat.add_assoc]

/-! ### Words -/

theorem readAs_word {c : Char} {cs : List Char} (hc : startsWord c = true)
    (hcs : ∀ d ∈ cs, ContinuesWord d) : ReadAs (c :: cs) (.ofWord (String.ofList (c :: cs))) :=
  readAs_of_scan fun depth pos _ hrest => scan_word depth pos hc hcs hrest

/-! ### Integers -/

theorem numeral_append (acc : List Char) (pos : Nat) {ds rest : List Char}
    (h : ∀ d ∈ ds, d.isDigit = true) (hrest : Ends rest) :
    numeral acc false pos (ds ++ rest) = ⟨(ds.reverse ++ acc, false), pos + byteLength ds, rest⟩ := by
  induction ds generalizing acc pos with
  | nil =>
    cases rest with
    | nil => rfl
    | cons d rest =>
      obtain rfl := hrest d rfl
      unfold numeral
      simp [byteLength]
  | cons d ds ih =>
    obtain ⟨hd, hds⟩ := List.forall_mem_cons.1 h
    have hascii : d.toNat < 128 := by
      have hrange := isDigit_iff.1 hd
      omega
    rw [List.cons_append]
    unfold numeral
    rw [if_pos hd, ih _ _ hds, List.reverse_cons, List.append_assoc, byteLength,
      width_of_ascii hascii, Nat.add_assoc]
    rfl

/-- The decimal digits of a number begin with one, and they are read as the number. -/
theorem exists_digits (n : Nat) : ∃ d ds, (toString n).toList = d :: ds ∧
    (∀ c ∈ d :: ds, c.isDigit = true) ∧ digitsValue (d :: ds) = n := by
  have hdigits : (toString n).toList = Nat.toDigits 10 n := by
    rw [Nat.toString_eq_ofList_toDigits, String.toList_ofList]
  obtain ⟨d, ds, hcons⟩ := List.exists_cons_of_ne_nil (Nat.toDigits_ne_nil (b := 10) (n := n))
  refine ⟨d, ds, hdigits.trans hcons, fun c hc => ?_, ?_⟩
  · exact Nat.isDigit_of_mem_toDigits (by decide) (by decide) (hcons ▸ hc)
  · rw [← hcons]
    exact Nat.ofDigitChars_toDigits (by decide) (by decide)

theorem readInt64?_digits {d : Char} {ds : List Char} (h : ∀ c ∈ d :: ds, c.isDigit = true)
    (hrange : (digitsValue (d :: ds) : Int) ≤ Word.maxInt) :
    readInt64? (String.ofList (d :: ds)) = some (digitsValue (d :: ds) : Int) := by
  have hread : readDigits? (d :: ds) = some (digitsValue (d :: ds)) :=
    if_pos ⟨List.cons_ne_nil _ _, List.all_eq_true.2 h⟩
  have hlow : Word.minInt ≤ (digitsValue (d :: ds) : Int) := by
    unfold Word.minInt
    omega
  unfold readInt64?
  rw [String.toList_ofList, splitSign_digit (h d List.mem_cons_self)]
  dsimp only
  rw [hread]
  exact if_pos ⟨hlow, hrange⟩

theorem readAs_int {n : Nat} (h : (n : Int) ≤ Word.maxInt) :
    ReadAs (toString n).toList (.int n) := by
  obtain ⟨d, ds, hcons, hdigits, hvalue⟩ := exists_digits n
  rw [hcons]
  obtain ⟨hd, hds⟩ := List.forall_mem_cons.1 hdigits
  have hrange := isDigit_iff.1 hd
  have hblank : ¬(d = ' ' ∨ d = '\t' ∨ d = '\r') := by
    rintro (rfl | rfl | rfl) <;> cases hd
  have hbreak : d ≠ '\n' := by
    rintro rfl
    cases hd
  refine readAs_of_scan fun depth pos rest hrest => ?_
  have hnumeral := numeral_append [d] (pos + 1) hds hrest
  have htoken : ofNumeral (numeral [d] false (pos + 1) (ds ++ rest)).value.1
      (numeral [d] false (pos + 1) (ds ++ rest)).value.2 = .ok (.int n) := by
    rw [hnumeral]
    unfold ofNumeral
    dsimp only
    rw [List.reverse_append, List.reverse_reverse, List.reverse_singleton, List.singleton_append,
      if_neg (by decide), readInt64?_digits hdigits (hvalue.symm ▸ h), hvalue]
  unfold scan
  rw [if_neg hblank, if_neg hbreak, if_pos hd]
  dsimp only
  rw [htoken]
  refine ⟨_, rfl, rfl, ?_, congrArg Lexeme.rest hnumeral⟩
  refine (congrArg Lexeme.finish hnumeral).trans ?_
  rw [byteLength, width_of_ascii (by omega), Nat.add_assoc]

/-! ### Texts -/

/-- The end of a text in quotes is its first quote of that kind without a backslash before it. -/
theorem quotedText_escape {quote : Char} (hquote : quote = '"' ∨ quote = '\'') (acc : List Char)
    (pos : Nat) (cs rest : List Char) :
    quotedText quote acc pos (escape quote cs ++ quote :: rest) =
      some ⟨cs.reverse ++ acc, pos + byteLength (escape quote cs ++ [quote]), rest⟩ := by
  have hbackslash : '\\' ≠ quote := by
    rcases hquote with rfl | rfl <;> decide
  induction cs generalizing acc pos with
  | nil =>
    unfold quotedText
    exact if_pos rfl
  | cons c cs ih =>
    by_cases hescaped : c = quote ∨ c = '\\'
    · have hsame : unescape c = c := by
        rcases hescaped with rfl | rfl
        · rcases hquote with rfl | rfl <;> rfl
        · rfl
      have hescape : escape quote (c :: cs) = '\\' :: c :: escape quote cs := if_pos hescaped
      rw [hescape]
      unfold quotedText
      dsimp only [List.cons_append]
      rw [if_neg hbackslash, if_pos rfl, ih, hsame]
      have hwidth : width '\\' = 1 := rfl
      simp only [byteLength, hwidth, List.reverse_cons, List.append_assoc, List.singleton_append,
        Nat.add_assoc]
    · have hescape : escape quote (c :: cs) = c :: escape quote cs := if_neg hescaped
      rw [hescape]
      unfold quotedText
      dsimp only [List.cons_append]
      rw [if_neg fun h => hescaped (.inl h), if_neg fun h => hescaped (.inr h), ih]
      simp only [byteLength, List.reverse_cons, List.append_assoc, List.singleton_append,
        Nat.add_assoc]

/-- A quoted text is read to its closing quote, whatever follows. -/
theorem scan_text {quote : Char} (hquote : quote = '"' ∨ quote = '\'') (cs rest : List Char)
    (depth pos : Nat) : ∃ s : Scan (escape quote cs ++ [quote] ++ rest),
      scan depth quote pos (escape quote cs ++ [quote] ++ rest) = .ok s ∧
        s.token = some (.text (String.ofList cs)) ∧
        s.finish = pos + byteLength (quote :: (escape quote cs ++ [quote])) ∧ s.rest.1 = rest := by
  have hend : escape quote cs ++ [quote] ++ rest = escape quote cs ++ quote :: rest := by
    rw [List.append_assoc, List.singleton_append]
  have hquoted := quotedText_escape hquote [] (pos + 1) cs rest
  rw [← hend, List.append_nil] at hquoted
  have hwidth : width quote = 1 := by
    rcases hquote with rfl | rfl <;> rfl
  have hbranch : ¬(quote = ' ' ∨ quote = '\t' ∨ quote = '\r') ∧ quote ≠ '\n' ∧
      ¬quote.isDigit ∧ ¬startsWord quote := by
    rcases hquote with rfl | rfl <;> decide
  obtain ⟨hblank, hbreak, hdigit, hword⟩ := hbranch
  unfold scan
  rw [if_neg hblank, if_neg hbreak, if_neg hdigit, if_neg hword, if_pos hquote]
  split
  · next l hl =>
    rw [hquoted, Option.some_inj] at hl
    subst hl
    refine ⟨_, rfl, ?_, ?_, rfl⟩
    · simp
    · rw [byteLength, hwidth]
      exact Nat.add_assoc pos 1 _
  · next hl =>
    rw [hquoted] at hl
    cases hl

theorem readAs_text {quote : Char} (hquote : quote = '"' ∨ quote = '\'') (s : String) :
    ReadAs (quote :: (escape quote s.toList ++ [quote])) (.text s) := by
  refine readAs_of_scan fun depth pos rest _ => ?_
  have hscan := scan_text hquote s.toList rest depth pos
  rwa [String.ofList_toList] at hscan

/-! ### Signs -/

theorem readAs_sign {c : Char} {t : Token} (h : sign? c = some t) : ReadAs [c] t := by
  refine readAs_of_scan fun depth pos rest _ => ?_
  unfold sign? at h
  split at h <;> cases h <;> exact ⟨_, rfl, rfl, rfl, rfl⟩

theorem readAs_short {c d : Char} {long short : Token} (h : longSign? c = some (d, long, short)) :
    ReadAs [c] short := by
  refine readAs_of_scan fun depth pos rest hrest => ?_
  have hrest' : rest = [] ∨ ∃ more, rest = ' ' :: more := by
    cases rest with
    | nil => exact .inl rfl
    | cons e more => exact .inr ⟨more, by rw [hrest e rfl]⟩
  unfold longSign? at h
  split at h <;> cases h <;> rcases hrest' with rfl | ⟨more, rfl⟩ <;> exact ⟨_, rfl, rfl, rfl, rfl⟩

theorem readAs_long {c d : Char} {long short : Token} (h : longSign? c = some (d, long, short)) :
    ReadAs [c, d] long := by
  refine readAs_of_scan fun depth pos rest _ => ?_
  unfold longSign? at h
  split at h <;> cases h <;> exact ⟨_, rfl, rfl, rfl, rfl⟩

theorem readAs_doubled {c : Char} {whole : String} {t : Token}
    (h : doubleSign? c = some (whole, t)) : ReadAs [c, c] t := by
  refine readAs_of_scan fun depth pos rest _ => ?_
  unfold doubleSign? at h
  split at h <;> cases h <;> exact ⟨_, rfl, rfl, rfl, rfl⟩

/-! ### Words and signs of their own -/

theorem readAs_reserved {w : String} (h : w ∈ reservedWords) :
    ReadAs w.toList (Token.ofWord w) := by
  have hshape : ∀ v ∈ reservedWords, v.toList ≠ [] ∧ v.toList.head?.all startsWord = true ∧
      v.toList.tail.all Char.isAlphanum = true := by decide
  obtain ⟨hne, hhead, htail⟩ := hshape w h
  obtain ⟨c, cs, hcons⟩ := List.exists_cons_of_ne_nil hne
  rw [hcons] at hhead htail
  have hcs : ∀ d ∈ cs, ContinuesWord d := by
    intro d hd
    exact .of_ascii (.inl (List.all_eq_true.1 htail d hd))
  have hread := readAs_word (c := c) hhead hcs
  rwa [← hcons, String.ofList_toList] at hread

theorem readAs_spelling {t : Token} {w : String} (h : w ∈ t.spellings) : ReadAs w.toList t := by
  cases t
  case int | real | text | name => cases h
  case yes | no | nothing =>
    rcases List.mem_pair.1 h with rfl | rfl
    · exact readAs_reserved (by decide)
    · exact readAs_reserved (by decide)
  case isIn | isSame =>
    obtain rfl := List.mem_singleton.1 h
    exact readAs_reserved (by decide)
  case and =>
    rcases List.mem_pair.1 h with rfl | rfl
    · exact readAs_reserved (by decide)
    · exact readAs_doubled (c := '&') rfl
  case or =>
    rcases List.mem_pair.1 h with rfl | rfl
    · exact readAs_reserved (by decide)
    · exact readAs_doubled (c := '|') rfl
  case not =>
    rcases List.mem_pair.1 h with rfl | rfl
    · exact readAs_reserved (by decide)
    · exact readAs_short (c := '!') rfl
  case add | sub | div | assign | less | greater =>
    obtain rfl := List.mem_singleton.1 h
    exact readAs_short rfl
  case addAssign | subAssign | floorDiv | equal | notEqual | lessEqual | greaterEqual =>
    obtain rfl := List.mem_singleton.1 h
    exact readAs_long rfl
  all_goals
    obtain rfl := List.mem_singleton.1 h
    exact readAs_sign rfl

theorem Token.WrittenAs.readAs {t : Token} {w : List Char} (h : t.WrittenAs w) : ReadAs w t := by
  cases h with
  | int h => exact readAs_int h
  | name h =>
    obtain ⟨c, cs, hcons, hc, hcs⟩ := h.shape
    have hread := readAs_word hc hcs
    rwa [← hcons, String.ofList_toList, h.word] at hread
  | text hquote s => exact readAs_text hquote s
  | spelling h => exact readAs_spelling h

/-! ## Reading all of them -/

/-- Written forms, one after the other, with single spaces between them. -/
def spaced (ws : List (List Char)) : List Char := [' '].intercalate ws

/-- What stands in front of a written form: those before it, each with its space. -/
def lead (ws : List (List Char)) (k : Nat) : List Char := (ws.take k).flatMap (· ++ [' '])

theorem spaced_singleton (w : List Char) : spaced [w] = w := List.intercalate_singleton

theorem spaced_cons (w : List Char) {ws : List (List Char)} (h : ws ≠ []) :
    spaced (w :: ws) = w ++ ' ' :: spaced ws := by
  unfold spaced
  rw [List.intercalate_cons_of_ne_nil h, List.append_assoc, List.singleton_append]

theorem lead_succ (w : List Char) (ws : List (List Char)) (k : Nat) :
    lead (w :: ws) (k + 1) = w ++ ' ' :: lead ws k := by
  simp [lead]

theorem byteLength_lead_succ (w : List Char) (ws : List (List Char)) (k : Nat) :
    byteLength (lead (w :: ws) (k + 1)) = byteLength w + 1 + byteLength (lead ws k) := by
  rw [lead_succ, byteLength_append, byteLength, Nat.add_assoc]
  rfl

theorem byteLength_lead_lt {ws : List (List Char)} {i j : Nat} (hij : i < j) (hj : j ≤ ws.length) :
    byteLength (lead ws i) < byteLength (lead ws j) := by
  induction ws generalizing i j with
  | nil =>
    rw [List.length_nil] at hj
    omega
  | cons w ws ih =>
    obtain ⟨j, rfl⟩ := Nat.exists_eq_add_one_of_ne_zero (Nat.ne_zero_of_lt hij)
    rw [byteLength_lead_succ]
    cases i with
    | zero =>
      change 0 < _
      omega
    | succ i =>
      have hlt := ih (Nat.lt_of_succ_lt_succ hij) (Nat.le_of_succ_le_succ hj)
      rw [byteLength_lead_succ]
      omega

/-- Each written form stands behind those before it. -/
theorem spaced_eq_lead {ws : List (List Char)} {k : Nat} {w : List Char} (h : ws[k]? = some w) :
    ∃ after, spaced ws = lead ws k ++ w ++ after := by
  induction ws generalizing k with
  | nil => cases h
  | cons v ws ih =>
    cases k with
    | zero =>
      obtain rfl := Option.some_inj.1 h
      by_cases hws : ws = []
      · subst hws
        exact ⟨[], by rw [spaced_singleton, List.append_nil]; rfl⟩
      · exact ⟨' ' :: spaced ws, spaced_cons v hws⟩
    | succ k =>
      have hws : ws ≠ [] := by
        rintro rfl
        cases h
      obtain ⟨after, hafter⟩ := ih h
      refine ⟨after, ?_⟩
      rw [spaced_cons v hws, hafter, lead_succ, List.append_assoc, List.append_assoc,
        List.append_assoc, List.cons_append]

theorem tokensFrom_space (depth pos : Nat) (cs : List Char) {more : List Located}
    (h : tokensFrom depth (pos + 1) cs = .ok more) :
    tokensFrom depth pos (' ' :: cs) = .ok more :=
  tokensFrom_of_scan (s := ⟨none, pos + 1, .all _⟩) rfl h

theorem tokensFrom_spaced {ts : List Token} {ws : List (List Char)}
    (h : List.Forall₂ Token.WrittenAs ts ws) (depth pos : Nat) :
    tokensFrom depth pos (spaced ws) =
      .ok (ts.mapIdx fun k t => ⟨t, pos + byteLength (lead ws k)⟩) := by
  induction h generalizing depth pos with
  | nil => exact tokensFrom_nil depth pos
  | @cons t w ts ws ht hts ih =>
    have hlater : (ts.mapIdx fun k t => (⟨t, pos + byteLength (lead (w :: ws) (k + 1))⟩ : Located)) =
        ts.mapIdx fun k t => ⟨t, pos + byteLength w + 1 + byteLength (lead ws k)⟩ := by
      simp only [byteLength_lead_succ, Nat.add_assoc]
    rw [List.mapIdx_cons, hlater]
    by_cases hws : ws = []
    · -- The last form: nothing follows it, not even a space.
      subst hws
      cases hts
      have hlast := ht.readAs depth pos [] [] nofun (tokensFrom_nil _ _)
      rw [List.append_nil] at hlast
      rw [spaced_singleton, hlast]
      rfl
    · rw [spaced_cons w hws]
      refine ht.readAs depth pos _ _ ?_ (tokensFrom_space _ _ _ (ih _ _))
      rintro c ⟨⟩
      rfl

/-- Tokens that can be written are read back from what was written: the same tokens, at increasing
bytes, each at the byte where its written form begins. -/
theorem tokens_read_back {ts : List Token} (hts : ∀ t ∈ ts, t.Writable) :
    (∃ ws, List.Forall₂ Token.WrittenAs ts ws) ∧
      ∀ ws, List.Forall₂ Token.WrittenAs ts ws →
        ∃ ls, tokens (spaced ws) = .ok ls ∧ ls.map Located.token = ts ∧
          (ls.map Located.offset).Pairwise (· < ·) ∧
          ∀ k l w, ls[k]? = some l → ws[k]? = some w →
            ∃ after, w ≠ [] ∧ spaced ws = lead ws k ++ w ++ after ∧
              l.offset = byteLength (lead ws k) := by
  constructor
  · induction ts with
    | nil => exact ⟨[], .nil⟩
    | cons t ts ih =>
      obtain ⟨ht, hts⟩ := List.forall_mem_cons.1 hts
      obtain ⟨w, hw⟩ := ht.exists_form
      obtain ⟨ws, hws⟩ := ih hts
      exact ⟨w :: ws, .cons hw hws⟩
  · intro ws hws
    refine ⟨_, tokensFrom_spaced hws 0 0, ?_, ?_, ?_⟩
    · refine List.ext_getElem (by simp) fun k _ _ => ?_
      rw [List.getElem_map, List.getElem_mapIdx]
    · rw [List.pairwise_map, List.pairwise_iff_getElem]
      intro i j _ hj hij
      rw [List.length_mapIdx, hws.length_eq] at hj
      rw [List.getElem_mapIdx, List.getElem_mapIdx, Nat.zero_add, Nat.zero_add]
      exact byteLength_lead_lt hij hj.le
    · intro k l w hl hw
      obtain ⟨after, hafter⟩ := spaced_eq_lead hw
      rw [List.getElem?_mapIdx, Option.map_eq_some_iff] at hl
      obtain ⟨t, ht, rfl⟩ := hl
      obtain ⟨hkt, rfl⟩ := List.getElem?_eq_some_iff.1 ht
      obtain ⟨hkw, rfl⟩ := List.getElem?_eq_some_iff.1 hw
      exact ⟨after, (hws.get hkt hkw).readAs.ne_nil, hafter, Nat.zero_add _⟩

theorem tokens_read_back_quoted :
    let ts := [.name "x_1", .greaterEqual, .int 12, .and, .text "é's \"\\\n", .isIn, .openSquare]
    (∀ t ∈ ts, Token.Writable t) ∧
      ∃ ls, tokens "x_1 >= 12 && 'é\\'s \"\\\\\n' in [".toList = .ok ls ∧ ls.map Located.token = ts ∧
        ∃ l, ls[5]? = some l ∧ l.token = .isIn ∧ l.offset = 26 := by
  intro ts
  have hname : IsIdentifier "x_1" := by
    refine ⟨⟨'x', ['_', '1'], rfl, rfl, fun d hd => .of_ascii ?_⟩, rfl⟩
    rcases List.mem_pair.1 hd with rfl | rfl
    · exact .inr rfl
    · exact .inl rfl
  have hwritable : ∀ t ∈ ts, Token.Writable t := by
    simp only [ts, List.forall_mem_cons]
    exact ⟨hname, trivial, ⟨by decide, by decide⟩, trivial, trivial, trivial, trivial,
      List.forall_mem_nil _⟩
  have hforms : List.Forall₂ Token.WrittenAs ts ["x_1".toList, ">=".toList, (toString 12).toList,
      "&&".toList, '\'' :: (escape '\'' "é's \"\\\n".toList ++ ['\'']), "in".toList, "[".toList] :=
    .cons (.name hname) <| .cons (.spelling (by decide)) <| .cons (.int (by decide)) <|
      .cons (.spelling (by decide)) <| .cons (.text (.inr rfl) _) <| .cons (.spelling (by decide)) <|
        .cons (.spelling (by decide)) .nil
  obtain ⟨-, hread⟩ := tokens_read_back hwritable
  obtain ⟨ls, hls, htokens, -, hplaces⟩ := hread _ hforms
  have hsixth : (ls.map Located.token)[5]? = some .isIn := by
    rw [htokens]
    rfl
  rw [List.getElem?_map, Option.map_eq_some_iff] at hsixth
  obtain ⟨l, hl, htoken⟩ := hsixth
  obtain ⟨-, -, -, hoffset⟩ := hplaces 5 l _ hl rfl
  exact ⟨hwritable, ls, hls, htokens, l, hl, htoken, hoffset⟩

end Deskhand.Expr
