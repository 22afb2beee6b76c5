import Deskhand.Proofs.Slices

/-!
# Finding one text in another

A text is searched byte by byte. No byte inside a character looks like the first byte of one, so a match
of bytes begins and ends between characters, and the search finds what a search character by character
would find (`Text.exists_findByte?`). Positions count characters, as the bounds of slices do: the slice
at the position that `find` gives is the text that was looked for, and no slice of its length further in
front is (`Expr.find_locates`).
-/

namespace Deskhand

namespace Text

/-! ## The first match -/

section Search

variable {α : Type} {pattern xs : List α} {x : α} {j k pos : Nat}

/-- A list stands in another one behind so many of its items. -/
def MatchAt (pattern xs : List α) (k : Nat) : Prop :=
  ∃ before after, xs = before ++ (pattern ++ after) ∧ before.length = k

/-- The first of the places at which a list stands in another one. -/
structure FirstMatch (pattern xs : List α) (k : Nat) : Prop where
  here : MatchAt pattern xs k
  earlier : ∀ j < k, ¬MatchAt pattern xs j

theorem matchAt_zero : MatchAt pattern xs 0 ↔ pattern <+: xs := by
  constructor
  · rintro ⟨before, after, rfl, hlength⟩
    rw [List.length_eq_zero_iff.1 hlength]
    exact ⟨after, rfl⟩
  · rintro ⟨after, rfl⟩
    exact ⟨[], after, rfl, rfl⟩

theorem matchAt_succ : MatchAt pattern (x :: xs) (k + 1) ↔ MatchAt pattern xs k := by
  constructor
  · rintro ⟨before, after, hsplit, hlength⟩
    obtain ⟨y, rest, rfl⟩ := List.exists_cons_of_length_eq_add_one hlength
    exact ⟨rest, after, (List.cons.inj hsplit).2, Nat.succ.inj hlength⟩
  · rintro ⟨before, after, rfl, hlength⟩
    exact ⟨x :: before, after, rfl, congrArg Nat.succ hlength⟩

theorem not_matchAt_nil : ¬MatchAt pattern [] (k + 1) := by
  rintro ⟨before, after, hsplit, hlength⟩
  rw [(List.append_eq_nil_iff.1 hsplit.symm).1] at hlength
  cases hlength

theorem matchAt_iff_take (hk : k ≤ xs.length) :
    MatchAt pattern xs k ↔ (xs.drop k).take pattern.length = pattern := by
  constructor
  · rintro ⟨before, after, rfl, rfl⟩
    rw [List.drop_left, List.take_left]
  · intro h
    refine ⟨xs.take k, (xs.drop k).drop pattern.length, ?_, List.length_take_of_le hk⟩
    calc xs = xs.take k ++ xs.drop k := (List.take_append_drop k xs).symm
      _ = xs.take k ++ ((xs.drop k).take pattern.length ++ (xs.drop k).drop pattern.length) :=
        congrArg _ (List.take_append_drop _ _).symm
      _ = xs.take k ++ (pattern ++ (xs.drop k).drop pattern.length) := by rw [h]

theorem MatchAt.length_le (h : MatchAt pattern xs k) : k + pattern.length ≤ xs.length := by
  obtain ⟨before, after, rfl, rfl⟩ := h
  simp only [List.length_append]
  omega

theorem FirstMatch.unique (h : FirstMatch pattern xs j) (h' : FirstMatch pattern xs k) : j = k := by
  rcases Nat.lt_trichotomy j k with hlt | heq | hlt
  · exact absurd h.here (h'.earlier j hlt)
  · exact heq
  · exact absurd h'.here (h.earlier k hlt)

theorem firstMatch_zero (h : pattern <+: xs) : FirstMatch pattern xs 0 :=
  ⟨matchAt_zero.2 h, fun _ hj => absurd hj (Nat.not_lt_zero _)⟩

theorem firstMatch_succ (h : ¬pattern <+: x :: xs) :
    FirstMatch pattern (x :: xs) (k + 1) ↔ FirstMatch pattern xs k := by
  constructor
  · intro hmatch
    refine ⟨matchAt_succ.1 hmatch.here, fun j hj hearlier => ?_⟩
    exact hmatch.earlier (j + 1) (Nat.succ_lt_succ hj) (matchAt_succ.2 hearlier)
  · intro hmatch
    refine ⟨matchAt_succ.2 hmatch.here, fun j hj hearlier => ?_⟩
    cases j with
    | zero => exact h (matchAt_zero.1 hearlier)
    | succ j => exact hmatch.earlier j (Nat.lt_of_succ_lt_succ hj) (matchAt_succ.1 hearlier)

theorem exists_firstMatch (h : MatchAt pattern xs k) : ∃ n, FirstMatch pattern xs n := by
  classical
  exact ⟨Nat.find ⟨k, h⟩, Nat.find_spec ⟨k, h⟩, fun j hj => Nat.find_min ⟨k, h⟩ hj⟩

variable [BEq α] [LawfulBEq α]

/-- The search stops at the first match. -/
theorem findFrom_of_firstMatch (h : FirstMatch pattern xs k) :
    findFrom pattern pos xs = some (pos + k) := by
  induction xs generalizing pos k with
  | nil =>
    cases k with
    | zero =>
      have hempty : pattern = [] := List.prefix_nil.1 (matchAt_zero.1 h.here)
      rw [hempty]
      rfl
    | succ k => exact absurd h.here not_matchAt_nil
  | cons x rest ih =>
    unfold findFrom
    by_cases hhere : pattern <+: x :: rest
    · rw [if_pos (List.isPrefixOf_iff_prefix.2 hhere), h.unique (firstMatch_zero hhere)]
      rfl
    · rw [if_neg (hhere ∘ List.isPrefixOf_iff_prefix.1)]
      cases k with
      | zero => exact absurd (matchAt_zero.1 h.here) hhere
      | succ k => rw [ih ((firstMatch_succ hhere).1 h), Nat.add_assoc, Nat.add_comm 1]

theorem findFrom_of_none (h : ∀ k, ¬MatchAt pattern xs k) : findFrom pattern pos xs = none := by
  induction xs generalizing pos with
  | nil =>
    have hne : pattern.isEmpty = false := by
      rw [List.isEmpty_eq_false_iff]
      rintro rfl
      exact h 0 (matchAt_zero.2 List.nil_prefix)
    unfold findFrom
    rw [hne]
    rfl
  | cons x rest ih =>
    unfold findFrom
    rw [if_neg fun hhere => h 0 (matchAt_zero.2 (List.isPrefixOf_iff_prefix.1 hhere))]
    exact ih fun k hk => h (k + 1) (matchAt_succ.2 hk)

end Search

/-! ## Bytes and characters -/

section Bytes

variable {c : Char} {p s cs ds before : List Char}

theorem bytes_append : bytes (cs ++ ds) = bytes cs ++ bytes ds := List.flatMap_append

theorem toByteArray_bytes : (bytes cs).toByteArray = cs.utf8Encode := rfl

/-- What one text's bytes begin with is no other text but one that it begins with. -/
theorem prefix_of_bytes (h : bytes p <+: bytes s) : p <+: s := by
  obtain ⟨rest, hrest⟩ := h
  refine List.isPrefix_of_utf8Encode_append_eq_utf8Encode rest.toByteArray ?_
  rw [← toByteArray_bytes, ← toByteArray_bytes, ← hrest, List.toByteArray_append]

/-- Only the first byte of a character looks like the first byte of one. -/
theorem isUTF8FirstByte_iff {i : Nat} (h : i < (String.utf8EncodeChar c).length) :
    (String.utf8EncodeChar c)[i].IsUTF8FirstByte ↔ i = 0 := by
  have hsize : i < [c].utf8Encode.size := by
    rw [List.utf8Encode_singleton, List.size_toByteArray]
    exact h
  have hbyte : [c].utf8Encode[i] = (String.utf8EncodeChar c)[i] := by
    simp only [List.utf8Encode_singleton, List.getElem_toByteArray]
  rw [← hbyte]
  exact List.isUTF8FirstByte_getElem_utf8Encode_singleton

/-- Bytes that begin like a character begin between two characters. -/
theorem exists_split {front rest : List UInt8} {b : UInt8} (hb : b.IsUTF8FirstByte)
    (h : bytes s = front ++ b :: rest) :
    ∃ before after, s = before ++ after ∧ bytes before = front ∧ bytes after = b :: rest := by
  induction s generalizing front with
  | nil =>
    have hnil := (List.append_eq_nil_iff.1 h.symm).2
    cases hnil
  | cons c cs ih =>
    cases hfront : front with
    | nil => exact ⟨[], c :: cs, rfl, rfl, by rw [h, hfront]; rfl⟩
    | cons d ds =>
      rcases List.append_eq_append_iff.1 (h : String.utf8EncodeChar c ++ bytes cs = _) with
        ⟨more, hmore, hcs⟩ | ⟨inner, hinner, hrest⟩
      · obtain ⟨before, after, rfl, rfl, hafter⟩ := ih hcs
        refine ⟨c :: before, after, rfl, ?_, hafter⟩
        rw [← hfront, hmore]
        rfl
      · cases inner with
        | nil =>
          refine ⟨[c], cs, rfl, ?_, hrest.symm⟩
          rw [← hfront, ← List.append_nil front, ← hinner]
          exact List.flatMap_singleton ..
        | cons b' more =>
          -- the byte would lie inside this character
          obtain ⟨rfl, -⟩ := List.cons.inj hrest
          have hlength : front.length < (String.utf8EncodeChar c).length := by
            rw [hinner, List.length_append, List.length_cons]
            omega
          have hzero : front.length = 0 := by
            refine (isUTF8FirstByte_iff hlength).1 ?_
            simp only [hinner, List.getElem_append_right, Nat.sub_self, Nat.le_refl,
              List.getElem_cons_zero]
            exact hb
          rw [hfront] at hzero
          cases hzero

theorem exists_bytes_cons (c : Char) (cs : List Char) :
    ∃ b rest, bytes (c :: cs) = b :: rest ∧ b.IsUTF8FirstByte := by
  have hpos : 0 < (String.utf8EncodeChar c).length := by
    rw [String.length_utf8EncodeChar]
    exact c.utf8Size_pos
  have hfirst := (isUTF8FirstByte_iff hpos).2 rfl
  obtain ⟨b, rest, hrest⟩ := List.exists_cons_of_length_pos hpos
  refine ⟨b, rest ++ bytes cs, congrArg (· ++ bytes cs) hrest, ?_⟩
  simpa only [hrest, List.getElem_cons_zero] using hfirst

/-- A match of characters is one of bytes, -/
theorem MatchAt.bytes {after : List Char} (h : s = before ++ (p ++ after)) :
    MatchAt (bytes p) (bytes s) (bytes before).length :=
  ⟨_, Text.bytes after, by rw [h, bytes_append, bytes_append], rfl⟩

/-- and a match of bytes is one of characters. -/
theorem exists_of_matchAt_bytes {b : Nat} (hp : p ≠ []) (h : MatchAt (Text.bytes p) (Text.bytes s) b) :
    ∃ before after, s = before ++ (p ++ after) ∧ (Text.bytes before).length = b := by
  obtain ⟨front, back, hsplit, hlength⟩ := h
  obtain ⟨c, cs, rfl⟩ := List.exists_cons_of_ne_nil hp
  obtain ⟨first, rest, hbytes, hfirst⟩ := exists_bytes_cons c cs
  rw [hbytes] at hsplit
  obtain ⟨before, after, rfl, rfl, hafter⟩ := exists_split hfirst hsplit
  have hprefix : Text.bytes (c :: cs) <+: Text.bytes after := ⟨back, by rw [hbytes, hafter]; rfl⟩
  obtain ⟨more, rfl⟩ := prefix_of_bytes hprefix
  exact ⟨before, more, rfl, hlength⟩

/-- Of two beginnings of a text the one with fewer bytes has fewer characters. -/
theorem length_lt_of_bytes {before' : List Char} (h : before <+: s) (h' : before' <+: s)
    (hlt : (Text.bytes before').length < (Text.bytes before).length) :
    before'.length < before.length := by
  by_contra hle
  obtain ⟨more, rfl⟩ := List.prefix_of_prefix_length_le h h' (Nat.le_of_not_lt hle)
  rw [bytes_append, List.length_append] at hlt
  omega

/-- The first match of bytes begins where the first match of characters does. -/
theorem FirstMatch.bytes {k : Nat} (h : FirstMatch p s k) :
    ∃ before after, s = before ++ (p ++ after) ∧ before.length = k ∧
      FirstMatch (Text.bytes p) (Text.bytes s) (Text.bytes before).length := by
  obtain ⟨before, after, hsplit, hlength⟩ := h.here
  refine ⟨before, after, hsplit, hlength, .bytes hsplit, fun b hb hmatch => ?_⟩
  by_cases hp : p = []
  · rw [h.unique (firstMatch_zero (hp ▸ List.nil_prefix)), List.length_eq_zero_iff] at hlength
    rw [hlength] at hb
    exact Nat.not_lt_zero _ hb
  · obtain ⟨before', after', hsplit', rfl⟩ := exists_of_matchAt_bytes hp hmatch
    have hlt := length_lt_of_bytes ⟨_, hsplit.symm⟩ ⟨_, hsplit'.symm⟩ hb
    exact h.earlier _ (hlength ▸ hlt) ⟨before', after', hsplit', rfl⟩

/-- Before the first byte behind some characters, these characters begin. -/
theorem charactersBefore_append (before after : List Char) :
    charactersBefore (Text.bytes before).length (before ++ after) = before.length := by
  induction before with
  | nil => cases after <;> rfl
  | cons c cs ih =>
    have hlength : (Text.bytes (c :: cs)).length = c.utf8Size + (Text.bytes cs).length := by
      rw [← String.length_utf8EncodeChar, ← List.length_append]
      rfl
    obtain ⟨n, hn⟩ := Nat.exists_eq_add_one_of_ne_zero (Nat.ne_of_gt c.utf8Size_pos)
    rw [hlength, List.cons_append, List.length_cons, ← ih]
    generalize (Text.bytes cs).length = size
    have hsize : c.utf8Size + size = n + size + 1 := by omega
    rw [hsize, charactersBefore]
    congr 2
    omega

end Bytes

/-! ## The search -/

section Find

variable {p s : String} {k : Nat}

theorem utf8ByteSize_ofList (cs : List Char) : (String.ofList cs).utf8ByteSize = (bytes cs).length := by
  rw [← String.size_toByteArray, String.toByteArray_ofList, ← toByteArray_bytes,
    List.size_toByteArray]

/-- Where the first match begins, whole characters end, which the bytes found are counted in. -/
theorem exists_findByte? (h : FirstMatch p.toList s.toList k) :
    ∃ before after : String, s = before ++ p ++ after ∧ before.length = k ∧
      findByte? p s = some before.utf8ByteSize ∧ find? p s = some k := by
  obtain ⟨before, after, hsplit, rfl, hfirst⟩ := h.bytes
  have hbyte : findByte? p s = some (bytes before).length :=
    (findFrom_of_firstMatch hfirst).trans (congrArg some (Nat.zero_add _))
  refine ⟨String.ofList before, String.ofList after, ?_, String.length_ofList, ?_, ?_⟩
  · rw [← String.toList_inj, hsplit]
    simp only [String.toList_append, String.toList_ofList, List.append_assoc]
  · rw [hbyte, utf8ByteSize_ofList]
  · unfold find?
    rw [hbyte, Option.map_some, hsplit, charactersBefore_append]

theorem findByte?_eq_none (h : ∀ k, ¬MatchAt p.toList s.toList k) : findByte? p s = none := by
  refine findFrom_of_none fun b hb => ?_
  by_cases hp : p.toList = []
  · exact h 0 (matchAt_zero.2 (hp ▸ List.nil_prefix))
  · obtain ⟨before, after, hsplit, -⟩ := exists_of_matchAt_bytes hp hb
    exact h before.length ⟨before, after, hsplit, rfl⟩

theorem find?_eq_none (h : ∀ k, ¬MatchAt p.toList s.toList k) : find? p s = none := by
  unfold find?
  rw [findByte?_eq_none h, Option.map_none]

/-- A text occurs in another one if that is this text with something before and behind it. -/
theorem occursIn_iff : occursIn p s = true ↔ ∃ before after : String, s = before ++ p ++ after := by
  constructor
  · intro h
    by_cases hany : ∃ k, MatchAt p.toList s.toList k
    · obtain ⟨k, hk⟩ := exists_firstMatch hany.choose_spec
      obtain ⟨before, after, hsplit, -⟩ := exists_findByte? hk
      exact ⟨before, after, hsplit⟩
    · unfold occursIn at h
      rw [findByte?_eq_none fun k hk => hany ⟨k, hk⟩] at h
      cases h
  · rintro ⟨before, after, rfl⟩
    have hmatch : MatchAt p.toList (before ++ p ++ after).toList before.toList.length :=
      ⟨before.toList, after.toList, by simp only [String.toList_append, List.append_assoc], rfl⟩
    obtain ⟨k, hk⟩ := exists_firstMatch hmatch
    obtain ⟨_, _, -, -, hbyte, -⟩ := exists_findByte? hk
    unfold occursIn
    rw [hbyte]
    rfl

end Find

end Text

namespace Expr

open Value (IsInt64)

/-! ## Positions and slices -/

/-- The position of a text in another one. -/
def findIn (e ep : Expr) : Expr := .method e "find" [ep]

/-- Whether a text is in another one. -/
def within (e ep : Expr) : Expr := .compare ep [(.isIn, e)]

/-- As much of a text from a position on as another one is long. -/
def pieceAt (e ep position : Expr) : Expr :=
  .slice e (some position) (some (.binary position .add (.call "len" [ep])))

section Evaluation

variable {scope : Scope} {e ep : Expr} {s p : String} {k : Nat}

theorem eval_findIn (he : eval scope e = .ok (.text s)) (hp : eval scope ep = .ok (.text p)) :
    eval scope (findIn e ep) = .ok (.int ((Text.find? p s).elim (-1) Int.ofNat)) := by
  have hargs : evalItems scope [ep] = .ok [.text p] := by
    rw [evalItems, hp]
    rfl
  have harg : textArgument "find" [.text p] 0 = .ok p := rfl
  unfold findIn
  rw [eval, he, ok_bind, hargs, ok_bind]
  change textMethod s "find" [.text p] = _
  simp only [textMethod, harg, ok_bind]
  cases Text.find? p s <;> rfl

theorem eval_within (he : eval scope e = .ok (.text s)) (hp : eval scope ep = .ok (.text p)) :
    eval scope (within e ep) = .ok (.bool (Text.occursIn p s)) := by
  unfold within
  rw [eval, hp, ok_bind, evalChain, he, ok_bind]
  change (do if (← Except.ok (Text.occursIn p s)) then _ else _) = _
  cases Text.occursIn p s <;> rfl

theorem eval_pieceAt {position : Expr} {xs ps : List Char}
    (he : eval scope e = .ok (.text (String.ofList xs)))
    (hp : eval scope ep = .ok (.text (String.ofList ps))) (hk : CountsIn scope position k)
    (hsize : IsInt64 xs.length) (hend : k + ps.length ≤ xs.length) :
    eval scope (pieceAt e ep position) =
      .ok (.text (String.ofList ((xs.drop k).take ps.length))) := by
  have hlen : CountsIn scope (.call "len" [ep]) ps.length :=
    ⟨_, eval_len .text hp, .word (isInt64_of_le hsize (Nat.le_of_add_left_le hend))⟩
  have hstop := hk.add hlen (isInt64_of_le hsize hend)
  unfold pieceAt
  rw [eval_slice_make .text he (.given hk) (.given hstop),
    ← Int.natCast_add, sliceItems_inside hsize (Nat.le_add_right _ _) hend, Nat.add_sub_cancel_left]

/-- A slice as long as a text is that text where the text stands, and only there. -/
theorem exists_pieceAt {position : Expr} (he : eval scope e = .ok (.text s))
    (hp : eval scope ep = .ok (.text p)) (hk : CountsIn scope position k) (hsize : IsInt64 s.length)
    (hend : k + p.toList.length ≤ s.toList.length) :
    ∃ t, eval scope (pieceAt e ep position) = .ok (.text t) ∧
      (t = p ↔ Text.MatchAt p.toList s.toList k) := by
  rw [← String.length_toList] at hsize
  rw [← String.ofList_toList (s := s)] at he
  rw [← String.ofList_toList (s := p)] at hp
  refine ⟨_, eval_pieceAt he hp hk hsize hend, ?_⟩
  rw [Text.matchAt_iff_take (by omega), ← String.toList_inj, String.toList_ofList]

/-- A first match is found at its position and by a slice, and by no slice further in front. -/
theorem finds_firstMatch (he : eval scope e = .ok (.text s)) (hp : eval scope ep = .ok (.text p))
    (hsize : IsInt64 s.length) (hk : Text.FirstMatch p.toList s.toList k)
    (hfound : eval scope (findIn e ep) = .ok (.int k)) :
    eval scope (pieceAt e ep (findIn e ep)) = .ok (.text p) ∧
      ∀ j : Nat, j < k → ∀ position, CountsIn scope position j →
        ∃ t, eval scope (pieceAt e ep position) = .ok (.text t) ∧ t ≠ p := by
  have hend := hk.here.length_le
  have hcounts : CountsIn scope (findIn e ep) k :=
    ⟨_, hfound, .word (isInt64_of_le hsize (Nat.le_of_add_right_le (String.length_toList ▸ hend)))⟩
  constructor
  · obtain ⟨t, ht, hmatch⟩ := exists_pieceAt he hp hcounts hsize hend
    rw [ht, hmatch.2 hk.here]
  · intro j hj position hposition
    obtain ⟨t, ht, hmatch⟩ := exists_pieceAt he hp hposition hsize (by omega)
    exact ⟨t, ht, fun heq => hk.earlier j hj (hmatch.1 heq)⟩

/-- What is found is where the search says it is and nowhere before, in characters as in slices, and
nothing is found exactly if there is nothing to be found. The search ends between two characters. -/
theorem find_locates (he : eval scope e = .ok (.text s)) (hp : eval scope ep = .ok (.text p))
    (hsize : IsInt64 s.length) :
    (eval scope (findIn e ep) = .ok (.int (-1)) ↔ eval scope (within e ep) = .ok (.bool false)) ∧
    (eval scope (within e ep) = .ok (.bool true) ↔
      ∃ before after : String, s = before ++ p ++ after) ∧
    (eval scope (within e ep) ≠ .ok (.bool false) →
      ∃ k : Nat, eval scope (findIn e ep) = .ok (.int k) ∧
        eval scope (pieceAt e ep (findIn e ep)) = .ok (.text p) ∧
        (∀ j : Nat, j < k → ∀ position, CountsIn scope position j →
          ∃ t, eval scope (pieceAt e ep position) = .ok (.text t) ∧ t ≠ p) ∧
        ∃ before after : String, s = before ++ after ∧ before.length = k ∧
          Text.findByte? p s = some before.utf8ByteSize) := by
  have hoccurs : eval scope (within e ep) = .ok (.bool true) ↔
      ∃ before after : String, s = before ++ p ++ after := by
    rw [eval_within he hp, ← Text.occursIn_iff, Except.ok.injEq, Value.bool.injEq]
  by_cases hany : ∃ k, Text.MatchAt p.toList s.toList k
  · obtain ⟨k, hk⟩ := Text.exists_firstMatch hany.choose_spec
    obtain ⟨before, after, hsplit, hlength, hbyte, hfind⟩ := Text.exists_findByte? hk
    have hfound : eval scope (findIn e ep) = .ok (.int k) := by
      rw [eval_findIn he hp, hfind]
      rfl
    have hthere : eval scope (within e ep) = .ok (.bool true) := hoccurs.2 ⟨before, after, hsplit⟩
    obtain ⟨hpiece, hearlier⟩ := finds_firstMatch he hp hsize hk hfound
    refine ⟨?_, hoccurs, fun _ => ⟨k, hfound, hpiece, hearlier, before, p ++ after, ?_, hlength,
      hbyte⟩⟩
    · rw [hfound, hthere]
      constructor
      · rintro ⟨⟩
      · rintro ⟨⟩
    · rw [hsplit, String.append_assoc]
  · have hnone : ∀ k, ¬Text.MatchAt p.toList s.toList k := fun k hk => hany ⟨k, hk⟩
    have hmissing : eval scope (within e ep) = .ok (.bool false) := by
      rw [eval_within he hp]
      unfold Text.occursIn
      rw [Text.findByte?_eq_none hnone]
      rfl
    refine ⟨iff_of_true ?_ hmissing, hoccurs, fun h => absurd hmissing h⟩
    rw [eval_findIn he hp, Text.find?_eq_none hnone]
    rfl

/-- Characters of several bytes stand before the match and in it. -/
theorem find_locates_letters :
    let word : Expr := .text "äb€b"
    let part : Expr := .text "€b"
    let scope : Scope := fun _ => none
    IsInt64 "äb€b".length ∧ eval scope (within word part) = .ok (.bool true) ∧
      eval scope (findIn word part) ≠ .ok (.int (-1)) ∧
      ∃ k : Nat, eval scope (findIn word part) = .ok (.int k) ∧
        eval scope (pieceAt word part (findIn word part)) = .ok (.text "€b") := by
  intro word part scope
  have hword : eval scope word = .ok (.text "äb€b") := rfl
  have hpart : eval scope part = .ok (.text "€b") := rfl
  have hsize : IsInt64 "äb€b".length := by decide
  obtain ⟨hnone, hoccurs, hsome⟩ := find_locates hword hpart hsize
  have hthere : eval scope (within word part) = .ok (.bool true) :=
    hoccurs.2 ⟨"äb", "", by decide⟩
  have hne : eval scope (within word part) ≠ .ok (.bool false) := by
    rw [hthere]
    nofun
  obtain ⟨k, hfound, hpiece, -, -⟩ := hsome hne
  exact ⟨hsize, hthere, hne ∘ hnone.1, k, hfound, hpiece⟩

end Evaluation

end Expr

end Deskhand
