import Deskhand.Expr.Eval
import Deskhand.Proofs.Places
import Deskhand.Proofs.WordArithmetic

/-!
# Slices and subscripts

Lists and texts are sequences, of items and of characters (`Value.Sequence`), and what is said here holds
of both. The bounds of a slice are in order and inside the sequence, and nothing on the way to them
leaves the words (`Expr.sliceBounds_eq`). The two slices at a bound make up the whole, and a subscript
reads the one element of a slice, or nothing if it is outside (`Expr.slices_consistent`).
-/

namespace Deskhand

/-- The two kinds of sequences: how a value is made of elements, and what one element is as a value. -/
inductive Value.Sequence : (α : Type) → (List α → Value) → (α → Value) → Prop
  | list : Sequence Value .list id
  | text : Sequence Char (fun cs => .text (String.ofList cs)) fun c => .text c.toString

open Value (IsInt64 Sequence)

namespace Expr

/-! ## Bounds -/

/-- A position as an offset from the start. -/
def offset (length : Nat) (i : Int) : Int := if i < 0 then length + i else i

/-- Where a bound lies that is given by a position, and by none. -/
def boundAt (default length : Nat) : Option Int → Nat
  | some i => (max 0 (min (length : Int) (offset length i))).toNat
  | none => default

theorem boundAt_le {default length : Nat} (h : default ≤ length) (i : Option Int) :
    boundAt default length i ≤ length := by
  cases i with
  | none => exact h
  | some i =>
    unfold boundAt
    dsimp only
    omega

section Bounds

variable {m : Type → Type} [Monad m] {plain : Int → m Int}
  (hplain : ∀ n, IsInt64 n → plain n = pure n) {length : Nat} {i : Int}

include hplain

theorem fromStart_eq (hlength : IsInt64 length) (hi : IsInt64 i) :
    fromStart plain length i = pure (offset length i) := by
  unfold fromStart offset
  split
  · next hneg =>
    refine hplain _ ?_
    unfold IsInt64 Word.minInt Word.maxInt at *
    omega
  · rfl

theorem clampBound_eq [LawfulMonad m] (hlength : IsInt64 length) (hi : IsInt64 i)
    (default : Nat) : clampBound plain length i = pure (boundAt default length (some i)) := by
  unfold clampBound
  rw [fromStart_eq hplain hlength hi, pure_bind]
  rfl

theorem boundOr_eq [LawfulMonad m] (hlength : IsInt64 length) {i : Option Int}
    (hi : ∀ n ∈ i, IsInt64 n) (default : Nat) :
    boundOr plain default length i = pure (boundAt default length i) := by
  cases i with
  | none => rfl
  | some n => exact clampBound_eq hplain hlength (hi n rfl) default

theorem sliceBounds_eq [LawfulMonad m] (hlength : IsInt64 length) {start stop : Option Int}
    (hstart : ∀ n ∈ start, IsInt64 n) (hstop : ∀ n ∈ stop, IsInt64 n) :
    sliceBounds plain length start stop = pure (boundAt 0 length start,
      max (boundAt 0 length start) (boundAt length length stop)) := by
  unfold sliceBounds
  rw [boundOr_eq hplain hlength hstart, boundOr_eq hplain hlength hstop, pure_bind, pure_bind]

end Bounds

theorem place?_eq (i : Int) (length : Nat) : place? i length =
    if 0 ≤ offset length i ∧ offset length i < length then some (offset length i).toNat else none :=
  rfl

theorem place?_eq_some_iff {i : Int} {length n : Nat} :
    place? i length = some n ↔ n < length ∧ offset length i = n := by
  rw [place?_eq, Option.ite_none_right_eq_some, Option.some_inj]
  omega

theorem exists_place_iff {i : Int} {length : Nat} :
    (∃ n, place? i length = some n) ↔ -(length : Int) ≤ i ∧ i < length := by
  simp only [place?_eq_some_iff]
  unfold offset
  constructor
  · rintro ⟨n, hlt, hoffset⟩
    omega
  · intro h
    exact ⟨(offset length i).toNat, by unfold offset; omega, by unfold offset; omega⟩

theorem boundAt_of_offset {default length n : Nat} {i : Int} (h : offset length i = n)
    (hn : n ≤ length) : boundAt default length (some i) = n := by
  unfold boundAt
  dsimp only
  omega

theorem isInt64_of_le {k n : Nat} (hn : IsInt64 n) (hk : k ≤ n) : IsInt64 k := by
  unfold IsInt64 Word.minInt Word.maxInt at *
  omega

theorem isInt64_of_mem_some {i : Int} (hi : IsInt64 i) : ∀ n ∈ some i, IsInt64 n := by
  rintro _ ⟨⟩
  exact hi

/-- What follows a place of a sequence is a word. -/
theorem isInt64_succ_of_place {i : Int} {length n : Nat} (hlength : IsInt64 length)
    (hi : IsInt64 i) (hn : place? i length = some n) : IsInt64 (i + 1) := by
  have hplace := exists_place_iff.1 ⟨n, hn⟩
  unfold IsInt64 at *
  omega

theorem CountsAs.position_eq {v : Value} {i : Int} (h : CountsAs v i) : position v = .ok i := by
  unfold position
  rw [h.quantity?]

section Sequences

variable {α : Type} {make : List α → Value} {one : α → Value} {xs ys : List α}
  {start stop : Option Int} {x : Value} {i : Int}

/-- The elements between two bounds are cut out of the sequence in one piece. -/
theorem sliceItems_eq (hlength : IsInt64 xs.length) (hstart : ∀ n ∈ start, IsInt64 n)
    (hstop : ∀ n ∈ stop, IsInt64 n) : sliceItems xs start stop =
      (xs.take (boundAt xs.length xs.length stop)).drop (boundAt 0 xs.length start) := by
  unfold sliceItems
  rw [sliceBounds_eq (fun _ => wrapped_word) hlength hstart hstop]
  dsimp only [Id.run_pure]
  -- bounds in the wrong order give nothing, and so does one bound twice
  rcases Nat.le_total (boundAt 0 xs.length start) (boundAt xs.length xs.length stop) with h | h
  · rw [Nat.max_eq_right h]
  · rw [Nat.max_eq_left h, List.drop_eq_nil_of_le (List.length_take_le _ _),
      List.drop_eq_nil_of_le ((List.length_take_le _ _).trans h)]

/-- The elements before, between and behind two bounds. -/
theorem sliceItems_between {first last : Nat} (hfirst : first ≤ last) (hlast : last ≤ xs.length)
    (h : (sliceBounds wrapped xs.length start stop).run = (first, last)) :
    ∃ before after, xs = before ++ sliceItems xs start stop ++ after ∧ before.length = first ∧
      (before ++ sliceItems xs start stop).length = last := by
  have hfront : xs.take first ++ sliceItems xs start stop = xs.take last := by
    unfold sliceItems
    rw [h]
    dsimp only
    rw [← List.take_append_drop first (xs.take last), List.take_take, Nat.min_eq_left hfirst,
      List.drop_append_of_le_length (by simp; omega)]
    simp
  refine ⟨xs.take first, xs.drop last, ?_, List.length_take_of_le (hfirst.trans hlast), ?_⟩
  · rw [hfront, List.take_append_drop]
  · rw [hfront, List.length_take_of_le hlast]

/-- What stands before a bound and what stands from it on make up the sequence. -/
theorem sliceItems_append (hlength : IsInt64 xs.length) (hi : IsInt64 i) :
    sliceItems xs none (some i) ++ sliceItems xs (some i) none = xs := by
  have hbound := isInt64_of_mem_some hi
  rw [sliceItems_eq hlength (by nofun) hbound, sliceItems_eq hlength hbound (by nofun)]
  change xs.take _ ++ (xs.take xs.length).drop _ = xs
  rw [List.take_length]
  exact List.take_append_drop _ xs

/-- Bounds that count from the start, in order and inside, are taken as they are. -/
theorem sliceItems_inside (hlength : IsInt64 xs.length) {k m : Nat} (hk : k ≤ m)
    (hm : m ≤ xs.length) : sliceItems xs (some k) (some m) = (xs.drop k).take (m - k) := by
  have hword : ∀ n : Nat, n ≤ xs.length → ∀ i ∈ some (n : Int), IsInt64 i :=
    fun n hn => isInt64_of_mem_some (isInt64_of_le hlength hn)
  have hoffset : ∀ n : Nat, offset xs.length n = n := fun n =>
    if_neg (Int.not_lt.2 (Int.natCast_nonneg n))
  rw [sliceItems_eq hlength (hword k (hk.trans hm)) (hword m hm),
    boundAt_of_offset (hoffset k) (hk.trans hm), boundAt_of_offset (hoffset m) hm, List.drop_take]

theorem drop_take_succ {n : Nat} {a : α} (h : xs[n]? = some a) : (xs.take (n + 1)).drop n = [a] := by
  obtain ⟨hlt, rfl⟩ := List.getElem?_eq_some_iff.1 h
  rw [List.take_succ_eq_append_getElem hlt, List.drop_append_of_le_length (by simp; omega),
    List.drop_eq_nil_of_le (List.length_take_le _ _), List.nil_append]

/-- The slice at a place goes on to the next position, or to the end if that is the start again. -/
theorem sliceItems_place (hlength : IsInt64 xs.length) (hi : IsInt64 i) {n : Nat} {a : α}
    (hn : place? i xs.length = some n) (ha : xs[n]? = some a) :
    sliceItems xs (some i) (if i = -1 then none else some (i + 1)) = [a] := by
  obtain ⟨hlt, hoffset⟩ := place?_eq_some_iff.1 hn
  have hstart : boundAt 0 xs.length (some i) = n := boundAt_of_offset hoffset (Nat.le_of_lt hlt)
  have hfirst := isInt64_of_mem_some hi
  by_cases hlast : i = -1
  · have hstop : xs.length = n + 1 := by
      unfold offset at hoffset
      omega
    rw [if_pos hlast, sliceItems_eq hlength hfirst (by nofun), hstart]
    change (xs.take xs.length).drop n = [a]
    rw [hstop, drop_take_succ ha]
  · have hnext : offset xs.length (i + 1) = (n + 1 : Nat) := by
      unfold offset at *
      omega
    have hstop : boundAt xs.length xs.length (some (i + 1)) = n + 1 := boundAt_of_offset hnext hlt
    have hnextWord := isInt64_of_mem_some (isInt64_succ_of_place hlength hi hn)
    rw [if_neg hlast, sliceItems_eq hlength hfirst hnextWord, hstart, hstop, drop_take_succ ha]

end Sequences

end Expr

/-! ## Sequences -/

namespace Value.Sequence

open Deskhand.Expr

variable {α : Type} {make : List α → Value} {one : α → Value} {xs ys : List α}

theorem slice (h : Sequence α make one) (start stop : Option Int) :
    sliceValue (make xs) start stop = .ok (make (sliceItems xs start stop)) := by
  cases h with
  | list => rfl
  | text =>
    unfold sliceValue
    dsimp only
    rw [String.toList_ofList]

theorem add (h : Sequence α make one) : operate (make xs) .add (make ys) = .ok (make (xs ++ ys)) := by
  cases h with
  | list => rfl
  | text => exact congrArg (fun s => Except.ok (Value.text s)) String.ofList_append.symm

/-- A subscript is the element at the place that the position denotes, if there is one. -/
theorem subscript (h : Sequence α make one) {x : Value} {i : Int} (hx : CountsAs x i) :
    ∃ e, subscriptValue (make xs) x =
      match (place? i xs.length).bind (xs[·]?) with
      | some a => .ok (one a)
      | none => .error (.index e) := by
  unfold subscriptValue
  cases h with
  | list =>
    refine ⟨.listIndex i, ?_⟩
    dsimp only
    rw [hx.position_eq, ok_bind]
    cases (place? i xs.length).bind (xs[·]?) <;> rfl
  | text =>
    refine ⟨.textIndex i, ?_⟩
    dsimp only
    rw [hx.position_eq, ok_bind, String.toList_ofList]
    cases (place? i xs.length).bind (xs[·]?) <;> rfl

end Value.Sequence

namespace Expr

/-! ## Slices and subscripts as expressions -/

/-- What the expression counts as among the integers. -/
def CountsIn (scope : Scope) (e : Expr) (n : Int) : Prop :=
  ∃ v, eval scope e = .ok v ∧ CountsAs v n

/-- A bound as it is written, and the position that it denotes. -/
inductive BoundIn (scope : Scope) : Option Expr → Option Int → Prop
  | missing : BoundIn scope none none
  | given {e : Expr} {n : Int} (h : CountsIn scope e n) : BoundIn scope (some e) (some n)

section Evaluation

variable {scope : Scope} {e ei ej : Expr} {start stop : Option Expr} {a b : Option Int} {i j : Int}

theorem CountsIn.word (h : CountsIn scope e i) : IsInt64 i := h.choose_spec.2.isInt64

theorem countsIn_int {n : Int} (hn : IsInt64 n) : CountsIn scope (.int n) n := ⟨_, rfl, .word hn⟩

theorem CountsIn.add (hi : CountsIn scope ei i) (hj : CountsIn scope ej j) (h : IsInt64 (i + j)) :
    CountsIn scope (.binary ei .add ej) (i + j) := by
  obtain ⟨v, hv, hvi⟩ := hi
  obtain ⟨w, hw, hwj⟩ := hj
  refine ⟨.int (i + j), ?_, .word h⟩
  rw [eval, hv, ok_bind, hw, ok_bind, operate_of_countsAs hvi hwj]
  change Except.ok (exactOr (i + j) _).toValue = _
  unfold exactOr
  rw [if_pos h]
  rfl

namespace BoundIn

theorem evalBound_eq (h : BoundIn scope start a) : evalBound scope start = .ok a := by
  cases h with
  | missing => rfl
  | given h =>
    obtain ⟨v, hv, hvn⟩ := h
    rw [evalBound, hv, ok_bind, hvn.position_eq]
    rfl

theorem word (h : BoundIn scope start a) : ∀ n ∈ a, IsInt64 n := by
  cases h with
  | missing => nofun
  | given h => exact isInt64_of_mem_some h.word

end BoundIn

theorem eval_slice {v : Value} (he : eval scope e = .ok v) (hstart : BoundIn scope start a)
    (hstop : BoundIn scope stop b) : eval scope (.slice e start stop) = sliceValue v a b := by
  rw [eval, he, ok_bind, hstart.evalBound_eq, ok_bind, hstop.evalBound_eq, ok_bind]

variable {α : Type} {make : List α → Value} {one : α → Value} {xs : List α}

theorem eval_slice_make (hkind : Sequence α make one) (he : eval scope e = .ok (make xs))
    (hstart : BoundIn scope start a) (hstop : BoundIn scope stop b) :
    eval scope (.slice e start stop) = .ok (make (sliceItems xs a b)) :=
  (eval_slice he hstart hstop).trans (hkind.slice a b)

theorem eval_len (hkind : Sequence α make one) (he : eval scope e = .ok (make xs)) :
    eval scope (.call "len" [e]) = .ok (.int xs.length) := by
  have hargs : evalItems scope [e] = .ok [make xs] := by
    rw [evalItems, he]
    rfl
  rw [eval, hargs, ok_bind]
  cases hkind with
  | list => rfl
  | text =>
    change Except.ok (Value.int (String.ofList xs).length) = _
    rw [String.length_ofList]

theorem eval_index_eq_ok_iff (hkind : Sequence α make one) (he : eval scope e = .ok (make xs))
    (hi : CountsIn scope ei i) {v : Value} : eval scope (.index e ei) = .ok v ↔
      ∃ n x, place? i xs.length = some n ∧ xs[n]? = some x ∧ v = one x := by
  obtain ⟨w, hw, hwi⟩ := hi
  obtain ⟨err, hread⟩ : ∃ err, subscriptValue (make xs) w = _ := hkind.subscript hwi
  rw [eval, he, ok_bind, hw, ok_bind, hread]
  constructor
  · intro h
    split at h
    · next x hx =>
      cases h
      obtain ⟨n, hn, hxn⟩ := Option.bind_eq_some_iff.1 hx
      exact ⟨n, x, hn, hxn, rfl⟩
    · cases h
  · rintro ⟨n, x, hn, hxn, rfl⟩
    rw [hn, Option.bind_some, hxn]

/-- The bounds of a slice are in order and inside, the same ones with steps that trap, and every element
between them comes whole. -/
theorem exists_slice_between (hkind : Sequence α make one) (he : eval scope e = .ok (make xs))
    (hsize : IsInt64 xs.length) (ha : BoundIn scope start a) (hb : BoundIn scope stop b) :
    ∃ first last, sliceBounds trapped xs.length a b = some (first, last) ∧
      (sliceBounds wrapped xs.length a b).run = (first, last) ∧
      first ≤ last ∧ last ≤ xs.length ∧
      ∃ before middle after, xs = before ++ middle ++ after ∧ before.length = first ∧
        (before ++ middle).length = last ∧ eval scope (.slice e start stop) = .ok (make middle) := by
  have hbounds : ∀ {m : Type → Type} [Monad m] [LawfulMonad m] {plain : Int → m Int},
      (∀ n, IsInt64 n → plain n = pure n) → sliceBounds plain xs.length a b = _ :=
    fun hplain => sliceBounds_eq hplain hsize ha.word hb.word
  have hrun := congrArg Id.run (hbounds fun _ => wrapped_word)
  have hle : max (boundAt 0 xs.length a) (boundAt xs.length xs.length b) ≤ xs.length :=
    Nat.max_le.2 ⟨boundAt_le (Nat.zero_le _) a, boundAt_le (Nat.le_refl _) b⟩
  obtain ⟨before, after, hsplit, hfirst, hlast⟩ :=
    sliceItems_between (Nat.le_max_left _ _) hle hrun
  refine ⟨_, _, hbounds fun _ => trapped_word, hrun, Nat.le_max_left _ _, hle, ?_⟩
  exact ⟨before, _, after, hsplit, hfirst, hlast, eval_slice_make hkind he ha hb⟩

/-- The slice between two bounds is the slice up to the second one without what the first one skips. -/
theorem eval_slice_dropped (hkind : Sequence α make one) (he : eval scope e = .ok (make xs))
    (hsize : IsInt64 xs.length) (hi : CountsIn scope ei i) (hj : CountsIn scope ej j) :
    ∃ front, eval scope (.slice e none (some ej)) = .ok (make front) ∧
      eval scope (.slice e (some ei) (some ej)) =
        .ok (make (front.drop (min (clampBound wrapped xs.length i).run xs.length))) := by
  have hnone : ∀ n ∈ (none : Option Int), IsInt64 n := (.missing : BoundIn scope none none).word
  refine ⟨_, eval_slice_make hkind he .missing (.given hj), ?_⟩
  rw [eval_slice_make hkind he (.given hi) (.given hj),
    clampBound_eq (fun _ => wrapped_word) hsize hi.word 0,
    sliceItems_eq hsize (BoundIn.given hi).word (BoundIn.given hj).word,
    sliceItems_eq hsize hnone (BoundIn.given hj).word]
  dsimp only [Id.run_pure]
  rw [Nat.min_eq_left (boundAt_le (Nat.zero_le _) _)]
  rfl

theorem eval_index_succeeds_iff (hkind : Sequence α make one) (he : eval scope e = .ok (make xs))
    (hi : CountsIn scope ei i) :
    (∃ v, eval scope (.index e ei) = .ok v) ↔ -(xs.length : Int) ≤ i ∧ i < xs.length := by
  rw [← exists_place_iff]
  simp only [eval_index_eq_ok_iff hkind he hi]
  constructor
  · rintro ⟨_, n, _, hn, -, -⟩
    exact ⟨n, hn⟩
  · rintro ⟨n, hn⟩
    exact ⟨_, n, _, hn, List.getElem?_eq_getElem (place?_lt hn), rfl⟩

/-- What a subscript reads is the one element of the slice that begins there. -/
theorem eval_slice_of_index (hkind : Sequence α make one) (he : eval scope e = .ok (make xs))
    (hsize : IsInt64 xs.length) (hi : CountsIn scope ei i) {v : Value}
    (hv : eval scope (.index e ei) = .ok v) : ∃ x, v = one x ∧
      eval scope (.slice e (some ei) (if i = -1 then none else some (.binary ei .add (.int 1)))) =
        .ok (make [x]) := by
  obtain ⟨n, x, hn, hx, rfl⟩ := (eval_index_eq_ok_iff hkind he hi).1 hv
  have hstop : BoundIn scope (if i = -1 then none else some (.binary ei .add (.int 1)))
      (if i = -1 then none else some (i + 1)) := by
    split
    · exact .missing
    · exact .given (hi.add (countsIn_int (by decide)) (isInt64_succ_of_place hsize hi.word hn))
  refine ⟨x, rfl, ?_⟩
  rw [eval_slice_make hkind he (.given hi) hstop, sliceItems_place hsize hi.word hn hx]

/-- Slices and subscripts of a list or a text, whose length is a word, go together. The bounds of a slice
are in order and inside, and every element between them comes whole; nothing on the way leaves the words.
The slices up to a bound and from it on make up the whole, and a subscript is the element of the slice of
one. -/
theorem slices_consistent (hkind : Sequence α make one) (he : eval scope e = .ok (make xs))
    (hsize : IsInt64 xs.length) (hi : CountsIn scope ei i) (hj : CountsIn scope ej j) :
    eval scope (.call "len" [e]) = .ok (.int xs.length) ∧
    (∀ start stop a b, BoundIn scope start a → BoundIn scope stop b →
      ∃ first last, sliceBounds trapped xs.length a b = some (first, last) ∧
        (sliceBounds wrapped xs.length a b).run = (first, last) ∧
        first ≤ last ∧ last ≤ xs.length ∧
        ∃ before middle after, xs = before ++ middle ++ after ∧ before.length = first ∧
          (before ++ middle).length = last ∧
          eval scope (.slice e start stop) = .ok (make middle)) ∧
    eval scope (.binary (.slice e none (some ej)) .add (.slice e (some ej) none)) =
      .ok (make xs) ∧
    (∃ front, eval scope (.slice e none (some ej)) = .ok (make front) ∧
      eval scope (.slice e (some ei) (some ej)) =
        .ok (make (front.drop (min (clampBound wrapped xs.length i).run xs.length)))) ∧
    (∃ at', fromStart trapped xs.length i = some at' ∧ (fromStart wrapped xs.length i).run = at' ∧
      place? i xs.length = if 0 ≤ at' ∧ at' < xs.length then some at'.toNat else none) ∧
    ((∃ v, eval scope (.index e ei) = .ok v) ↔ -(xs.length : Int) ≤ i ∧ i < xs.length) ∧
    (∀ v, eval scope (.index e ei) = .ok v → ∃ x, v = one x ∧
      eval scope (.slice e (some ei) (if i = -1 then none else some (.binary ei .add (.int 1)))) =
        .ok (make [x])) := by
  refine ⟨eval_len hkind he, ?_, ?_, eval_slice_dropped hkind he hsize hi hj,
    ⟨offset xs.length i, ?_, ?_, place?_eq i xs.length⟩, eval_index_succeeds_iff hkind he hi, ?_⟩
  · intro start stop a b ha hb
    exact exists_slice_between hkind he hsize ha hb
  · rw [eval, eval_slice_make hkind he .missing (.given hj), ok_bind,
      eval_slice_make hkind he (.given hj) .missing, ok_bind, hkind.add,
      sliceItems_append hsize hj.word]
  · exact fromStart_eq (fun _ => trapped_word) hsize hi.word
  · exact congrArg Id.run (fromStart_eq (fun _ => wrapped_word) hsize hi.word)
  · intro v hv
    exact eval_slice_of_index hkind he hsize hi hv

/-- The least position is cut off at the start, and the last character is read whole. -/
theorem slices_consistent_letters :
    let letters : List Char := ['n', 'é', '€']
    let word : Expr := .text (String.ofList letters)
    let scope : Scope := fun _ => none
    IsInt64 letters.length ∧ CountsIn scope (.int (-1)) (-1) ∧
      CountsIn scope (.int Word.minInt) Word.minInt ∧
      eval scope (.binary (.slice word none (some (.int Word.minInt))) .add
        (.slice word (some (.int Word.minInt)) none)) = .ok (.text (String.ofList letters)) ∧
      ∃ c, eval scope (.index word (.int (-1))) = .ok (.text c.toString) ∧
        eval scope (.slice word (some (.int (-1))) none) = .ok (.text (String.ofList [c])) := by
  intro letters word scope
  have hword : eval scope word = .ok (.text (String.ofList letters)) := rfl
  have hsize : IsInt64 letters.length := by decide
  have hi : CountsIn scope (.int (-1)) (-1) := countsIn_int (by decide)
  have hj : CountsIn scope (.int Word.minInt) Word.minInt := countsIn_int (by decide)
  obtain ⟨-, -, hjoin, -, -, hinside, hone⟩ := slices_consistent .text hword hsize hi hj
  obtain ⟨v, hv⟩ := hinside.2 (by decide)
  obtain ⟨c, rfl, hslice⟩ := hone v hv
  exact ⟨hsize, hi, hj, hjoin, c, hv, hslice⟩

end Evaluation

end Expr

end Deskhand
