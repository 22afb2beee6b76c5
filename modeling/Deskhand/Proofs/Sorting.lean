import Deskhand.Expr.Function
import Deskhand.Proofs.Comparison
import Deskhand.Proofs.Fallible

/-!
# Sorting and extremes

Items are sorted by inserting them one after another among those before, which stand in reverse. Where
an item goes is a relation (`Expr.Inserted`), and so are its consequences: what was sorted stays sorted,
nothing is lost, and equal items keep their order. A neighbour that stands in order was compared, so by
transitivity all pairs of a list that was sorted can be compared. The last of the reversed items is what
a search for the least item would have found so far, and the first one is equal to what a search for the
greatest one would have found (`Expr.sorted_agrees`).
-/

namespace Deskhand

namespace Value

variable {a b c : Value} {o : Ordering}

/-- There is an order between the two. -/
def Orderable (a b : Value) : Prop := ∃ o, order a b = .ok o

/-- The first of the two does not come after the second. -/
def AtMost (a b : Value) : Prop := ∃ o, Compares a b o ∧ o ≠ .gt

theorem Compares.orderable (h : Compares a b o) : Orderable a b := ⟨o, h.order_eq⟩

theorem Orderable.compares (h : Orderable a b) : ∃ o, Compares a b o :=
  h.imp fun _ => compares_of_order

theorem Orderable.symm (h : Orderable a b) : Orderable b a := by
  obtain ⟨o, h⟩ := h.compares
  exact h.swap.orderable

theorem AtMost.orderable (h : AtMost a b) : Orderable a b := by
  obtain ⟨o, h, -⟩ := h
  exact h.orderable

theorem AtMost.trans (h : AtMost a b) (h' : AtMost b c) : AtMost a c := by
  obtain ⟨o, h, ho⟩ := h
  obtain ⟨o', h', ho'⟩ := h'
  refine ⟨_, h.trans h' ho ho', ?_⟩
  cases o with
  | lt => nofun
  | eq => exact ho'
  | gt => exact absurd rfl ho

/-- What is not less than another value comes after it. -/
theorem Compares.atMost_of_ne_lt (h : Compares a b o) (hne : o ≠ .lt) : AtMost b a := by
  refine ⟨o.swap, h.swap, ?_⟩
  cases o with
  | lt => exact absurd rfl hne
  | eq => nofun
  | gt => nofun

theorem Compares.atMost_of_lt (h : Compares a b .lt) : AtMost a b := ⟨.lt, h, by nofun⟩

/-- What comes before another value compares with it as not less the other way round. -/
theorem AtMost.exists_ne_lt (h : AtMost b a) : ∃ o, Compares a b o ∧ o ≠ .lt := by
  obtain ⟨o, h, hne⟩ := h
  refine ⟨o.swap, h.swap, ?_⟩
  cases o with
  | lt => nofun
  | eq => nofun
  | gt => exact absurd rfl hne

/-- Equal values compare alike with any third one. -/
theorem Compares.congr_right (h : Compares a b o) (hbc : Compares c b .eq) : Compares a c o := by
  cases o with
  | lt => exact h.trans hbc.swap (by nofun) (by nofun)
  | eq => exact h.trans hbc.swap (by nofun) (by nofun)
  | gt => exact (hbc.trans h.swap (by nofun) (by nofun)).swap

end Value

namespace Expr

open Value (Compares Orderable AtMost)

variable {v w u : Value} {vs ws out rest : List Value} {o : Ordering}

/-! ## Inserting an item -/

/-- The item stands among the others, which are in reverse order, behind those that are greater. -/
inductive Inserted (v : Value) : List Value → List Value → Prop
  | last : Inserted v [] [v]
  | past {w : Value} {rest out : List Value} (h : Compares v w .lt) (hrest : Inserted v rest out) :
      Inserted v (w :: rest) (w :: out)
  | here {w : Value} {rest : List Value} {o : Ordering} (h : Compares v w o) (hne : o ≠ .lt) :
      Inserted v (w :: rest) (v :: w :: rest)

theorem insertSorted_cons (h : Compares v w o) : insertSorted v (w :: rest) =
    if o = .lt then (insertSorted v rest).map (w :: ·) else .ok (v :: w :: rest) := by
  rw [insertSorted, orderOf_eq_ok.2 h, ok_bind]
  split
  · cases insertSorted v rest <;> rfl
  · rfl

theorem insertSorted_eq_ok : insertSorted v ws = .ok out ↔ Inserted v ws out := by
  constructor
  · intro h
    induction ws generalizing out with
    | nil =>
      cases h
      exact .last
    | cons w rest ih =>
      obtain ⟨o, ho, -⟩ := bind_eq_ok h
      have hcompares := orderOf_eq_ok.1 ho
      rw [insertSorted_cons hcompares] at h
      split at h
      · next heq =>
        subst heq
        cases hrest : insertSorted v rest with
        | error e =>
          rw [hrest] at h
          cases h
        | ok more =>
          rw [hrest] at h
          cases h
          exact .past hcompares (ih hrest)
      · next hne =>
        cases h
        exact .here hcompares hne
  · intro h
    induction h with
    | last => rfl
    | past h _ ih => rw [insertSorted_cons h, if_pos rfl, ih, Except.map]
    | here h hne => rw [insertSorted_cons h, if_neg hne]

/-- Items in reverse order: none is greater than one before it. -/
def Descending (ws : List Value) : Prop := ws.Pairwise fun later earlier => AtMost earlier later

namespace Inserted

theorem exists_of_orderable (h : ∀ w ∈ ws, Orderable v w) : ∃ out, Inserted v ws out := by
  induction ws with
  | nil => exact ⟨_, .last⟩
  | cons w rest ih =>
    obtain ⟨hw, hrest⟩ := List.forall_mem_cons.1 h
    obtain ⟨o, hcompares⟩ := hw.compares
    by_cases heq : o = .lt
    · subst heq
      obtain ⟨out, hout⟩ := ih hrest
      exact ⟨_, .past hcompares hout⟩
    · exact ⟨_, .here hcompares heq⟩

theorem perm (h : Inserted v ws out) : out.Perm (v :: ws) := by
  induction h with
  | last => exact .refl _
  | past _ _ ih => exact (ih.cons _).trans (.swap _ _ _)
  | here _ _ => exact .refl _

theorem descending (h : Inserted v ws out) (hws : Descending ws) : Descending out := by
  induction h with
  | last => exact List.pairwise_singleton _ _
  | @past w rest out hv hrest ih =>
    obtain ⟨hw, hrest'⟩ := List.pairwise_cons.1 hws
    refine List.pairwise_cons.2 ⟨fun u hu => ?_, ih hrest'⟩
    rcases List.mem_cons.1 (hrest.perm.mem_iff.1 hu) with rfl | hu
    · exact hv.atMost_of_lt
    · exact hw u hu
  | @here w rest o hv hne =>
    have hwv : AtMost w v := hv.atMost_of_ne_lt hne
    refine List.pairwise_cons.2 ⟨fun u hu => ?_, hws⟩
    rcases List.mem_cons.1 hu with rfl | hu
    · exact hwv
    · exact ((List.pairwise_cons.1 hws).1 u hu).trans hwv

/-- The item passes none that is equal to it. -/
theorem filter_equal (h : Inserted v ws out) (u : Value) :
    out.filter (·.equal u) = (v :: ws).filter (·.equal u) := by
  induction h with
  | last => rfl
  | @past w rest out hv _ ih =>
    rw [List.filter_cons, ih, List.filter_cons, List.filter_cons, List.filter_cons]
    by_cases hvu : v.equal u = true
    · have hwu : w.equal u ≠ true := fun hwu => by
        cases hv.eq_of_alike (Value.alike_of_equal hvu) (Value.alike_of_equal hwu)
      rw [if_neg hwu, if_neg hwu]
    · rw [if_neg hvu, if_neg hvu]
  | here _ _ => rfl

/-- The last item gives way to a new one if that one is less. -/
theorem exists_getLast? {m : Value} (h : Inserted v ws out) (hws : Descending ws)
    (hm : ws.getLast? = some m) :
    ∃ o, Compares v m o ∧ out.getLast? = some (if o = .lt then v else m) := by
  induction h with
  | last => cases hm
  | @past w rest out hv hrest ih =>
    cases rest with
    | nil =>
      cases hrest
      cases hm
      exact ⟨.lt, hv, rfl⟩
    | cons w' rest =>
      obtain ⟨o, ho, hlast⟩ := ih (List.pairwise_cons.1 hws).2 hm
      refine ⟨o, ho, ?_⟩
      rw [List.getLast?_cons, hlast]
      rfl
  | @here w rest o hv hne =>
    have hlast : (v :: w :: rest).getLast? = some m := hm
    have hmv : m = w ∨ AtMost m w := by
      rcases List.mem_cons.1 (List.mem_of_getLast? hm) with rfl | hmem
      · exact .inl rfl
      · exact .inr ((List.pairwise_cons.1 hws).1 m hmem)
    rcases hmv with rfl | hmw
    · exact ⟨o, hv, by rw [hlast, if_neg hne]⟩
    · obtain ⟨o', hv', hne'⟩ := (hmw.trans (hv.atMost_of_ne_lt hne)).exists_ne_lt
      exact ⟨o', hv', by rw [hlast, if_neg hne']⟩

/-- The first item gives way to a new one unless that one is less. -/
theorem exists_head? {m : Value} (h : Inserted v ws out) (hm : ws.head? = some m) :
    ∃ o, Compares v m o ∧ out.head? = some (if o = .lt then m else v) := by
  cases h with
  | last => cases hm
  | past hv _ =>
    cases hm
    exact ⟨.lt, hv, rfl⟩
  | here hv hne =>
    cases hm
    exact ⟨_, hv, by rw [if_neg hne]; rfl⟩

end Inserted

/-! ## Inserting all items -/

/-- The items sorted in reverse among those before. -/
def insertAll (sorted items : List Value) : Except ExprError (List Value) :=
  items.foldlM (fun sorted v => insertSorted v sorted) sorted

variable {items : List Value}

theorem insertAll_cons (h : Inserted v ws out) : insertAll ws (v :: items) = insertAll out items := by
  unfold insertAll
  rw [List.foldlM_cons, insertSorted_eq_ok.2 h]
  rfl

theorem exists_inserted (h : insertAll ws (v :: items) = .ok out) :
    ∃ mid, Inserted v ws mid ∧ insertAll mid items = .ok out := by
  obtain ⟨mid, hmid, hrest⟩ := bind_eq_ok h
  exact ⟨mid, insertSorted_eq_ok.1 hmid, hrest⟩

theorem perm_of_insertAll (h : insertAll ws items = .ok out) : out.Perm (items ++ ws) := by
  induction items generalizing ws with
  | nil =>
    cases h
    exact .refl _
  | cons v items ih =>
    obtain ⟨mid, hmid, hrest⟩ := exists_inserted h
    calc out.Perm (items ++ mid) := ih hrest
      _ |>.Perm (items ++ v :: ws) := hmid.perm.append_left items
      _ |>.Perm (v :: items ++ ws) := List.perm_middle

theorem descending_of_insertAll (h : insertAll ws items = .ok out) (hws : Descending ws) :
    Descending out :=
  foldlM_keeps (fun _ _ _ hws hv => (insertSorted_eq_ok.1 hv).descending hws) hws h

theorem filter_insertAll (h : insertAll ws items = .ok out) (u : Value) :
    out.filter (·.equal u) = (items.reverse ++ ws).filter (·.equal u) := by
  induction items generalizing ws with
  | nil =>
    cases h
    rfl
  | cons v items ih =>
    obtain ⟨mid, hmid, hrest⟩ := exists_inserted h
    rw [ih hrest, List.filter_append, hmid.filter_equal, ← List.filter_append, List.reverse_cons,
      List.append_assoc]
    rfl

theorem exists_insertAll (hitems : items.Pairwise Orderable)
    (h : ∀ v ∈ items, ∀ w ∈ ws, Orderable v w) : ∃ out, insertAll ws items = .ok out := by
  induction items generalizing ws with
  | nil => exact ⟨ws, rfl⟩
  | cons v items ih =>
    obtain ⟨hv, hitems⟩ := List.pairwise_cons.1 hitems
    obtain ⟨hvws, hrest⟩ := List.forall_mem_cons.1 h
    obtain ⟨mid, hmid⟩ := Inserted.exists_of_orderable hvws
    rw [insertAll_cons hmid]
    refine ih hitems fun x hx w hw => ?_
    rcases List.mem_cons.1 (hmid.perm.mem_iff.1 hw) with rfl | hw
    · exact (hv x hx).symm
    · exact hrest x hx w hw

/-- The last of the items so far is what a search for the least one has found. -/
theorem extremeFrom_lt {m : Value} (h : insertAll ws items = .ok out) (hws : Descending ws)
    (hm : ws.getLast? = some m) :
    ∃ least, extremeFrom .lt m items = .ok least ∧ out.getLast? = some least := by
  induction items generalizing ws m with
  | nil =>
    cases h
    exact ⟨m, rfl, hm⟩
  | cons v items ih =>
    obtain ⟨mid, hmid, hrest⟩ := exists_inserted h
    obtain ⟨o, ho, hlast⟩ := hmid.exists_getLast? hws hm
    obtain ⟨least, hleast, hout⟩ := ih hrest (hmid.descending hws) hlast
    refine ⟨least, ?_, hout⟩
    rw [extremeFrom, orderOf_eq_ok.2 ho, ok_bind, hleast]

/-- The first of the items so far is equal to what a search for the greatest one has found. -/
theorem extremeFrom_gt {m best : Value} (h : insertAll ws items = .ok out)
    (hm : ws.head? = some m) (hbest : best = m ∨ Compares best m .eq) :
    ∃ greatest first, extremeFrom .gt best items = .ok greatest ∧ out.head? = some first ∧
      (greatest = first ∨ Compares greatest first .eq) := by
  induction items generalizing ws m best with
  | nil =>
    cases h
    exact ⟨best, m, rfl, hm, hbest⟩
  | cons v items ih =>
    obtain ⟨mid, hmid, hrest⟩ := exists_inserted h
    obtain ⟨o, ho, hhead⟩ := hmid.exists_head? hm
    have hvbest : Compares v best o := by
      rcases hbest with rfl | hbest
      · exact ho
      · exact ho.congr_right hbest
    have hnext : (if o = .gt then v else best) = (if o = .lt then m else v) ∨
        Compares (if o = .gt then v else best) (if o = .lt then m else v) .eq := by
      cases o with
      | lt => exact hbest
      | eq => exact .inr hvbest.swap
      | gt => exact .inl rfl
    obtain ⟨greatest, first, hgreatest, hfirst, hsame⟩ := ih hrest hhead hnext
    refine ⟨greatest, first, ?_, hfirst, hsame⟩
    rw [extremeFrom, orderOf_eq_ok.2 hvbest, ok_bind, hgreatest]

/-! ## Sorting -/

theorem sortItems_eq (items : List Value) :
    sortItems items = (insertAll [] items).map List.reverse := by
  unfold sortItems insertAll
  cases items.foldlM (fun sorted v => insertSorted v sorted) [] <;> rfl

theorem call_sorted_eq_ok {xs : List Value} {r : Value} :
    callFunction "sorted" [.list xs] = .ok r ↔
      ∃ out, insertAll [] xs = .ok out ∧ r = .list out.reverse := by
  change (sortItems xs >>= fun ys => Except.ok (Value.list ys)) = .ok r ↔ _
  rw [sortItems_eq]
  cases insertAll [] xs with
  | error e => exact ⟨by nofun, by rintro ⟨_, ⟨⟩, _⟩⟩
  | ok out =>
    constructor
    · intro h
      exact ⟨out, rfl, (Except.ok.inj h).symm⟩
    · rintro ⟨_, ⟨⟩, rfl⟩
      rfl

/-- A list that was sorted has an order between all its items. -/
theorem pairwise_orderable (h : insertAll [] items = .ok out) : items.Pairwise Orderable := by
  have hperm : out.Perm items := by
    have hperm := perm_of_insertAll h
    rwa [List.append_nil] at hperm
  have hout : out.Pairwise Orderable :=
    (descending_of_insertAll h List.Pairwise.nil).imp fun hle => hle.orderable.symm
  exact (hperm.pairwise_iff fun hvw => hvw.symm).1 hout

/-- To sort a list succeeds exactly if any two of its items can be compared. The result has the same
items in ascending order, equal ones in the order in which they stood. The least item is its first one,
and the greatest one is equal to its last one: where several are greatest, one search keeps the first of
them and sorting puts the last of them at the end. An object that has a name twice is not even equal to
itself, but none can be written down. -/
theorem sorted_agrees (xs : List Value) :
    ((∃ r, callFunction "sorted" [.list xs] = .ok r) ↔
      ∀ i j (hi : i < xs.length) (hj : j < xs.length), i ≠ j → Orderable xs[i] xs[j]) ∧
    ∀ r, callFunction "sorted" [.list xs] = .ok r → ∃ ys, r = .list ys ∧ ys.Perm xs ∧
      ys.Pairwise (fun v w => compareValues v .lessEqual w = .ok true) ∧
      (∀ u, ys.filter (·.equal u) = xs.filter (·.equal u)) ∧
      (xs ≠ [] → ∃ first last greatest, ys.head? = some first ∧ ys.getLast? = some last ∧
        callFunction "min" [.list xs] = .ok first ∧ callFunction "max" [.list xs] = .ok greatest ∧
        (greatest.Unambiguous → greatest.equal last = true)) := by
  constructor
  · constructor
    · rintro ⟨r, hr⟩ i j hi hj hne
      obtain ⟨out, hout, -⟩ := call_sorted_eq_ok.1 hr
      have hpairs := List.pairwise_iff_getElem.1 (pairwise_orderable hout)
      rcases Nat.lt_or_gt_of_ne hne with hlt | hgt
      · exact hpairs i j hi hj hlt
      · exact (hpairs j i hj hi hgt).symm
    · intro h
      have hpairs : xs.Pairwise Orderable :=
        List.pairwise_iff_getElem.2 fun i j hi hj hlt => h i j hi hj (Nat.ne_of_lt hlt)
      have hnone : ∀ v ∈ xs, ∀ w ∈ ([] : List Value), Orderable v w :=
        fun _ _ _ hw => absurd hw List.not_mem_nil
      obtain ⟨out, hout⟩ := exists_insertAll hpairs hnone
      exact ⟨_, call_sorted_eq_ok.2 ⟨out, hout, rfl⟩⟩
  · intro r hr
    obtain ⟨out, hout, rfl⟩ := call_sorted_eq_ok.1 hr
    refine ⟨out.reverse, rfl, ?_, ?_, ?_, ?_⟩
    · have hperm := perm_of_insertAll hout
      rw [List.append_nil] at hperm
      exact out.reverse_perm.trans hperm
    · rw [List.pairwise_reverse]
      exact (descending_of_insertAll hout List.Pairwise.nil).imp lessEqual_iff.2
    · intro u
      rw [List.filter_reverse, filter_insertAll hout, List.append_nil, List.filter_reverse,
        List.reverse_reverse]
    · intro hne
      obtain ⟨x, rest, rfl⟩ := List.exists_cons_of_ne_nil hne
      obtain ⟨mid, hmid, hrest⟩ := exists_inserted hout
      cases hmid
      obtain ⟨least, hleast, hlast⟩ :=
        extremeFrom_lt hrest (List.pairwise_singleton _ x) (m := x) rfl
      have hbest : x = x ∨ Compares x x .eq := .inl rfl
      obtain ⟨greatest, first, hgreatest, hfirst, hsame⟩ := extremeFrom_gt hrest rfl hbest
      refine ⟨least, first, greatest, ?_, ?_, hleast, hgreatest, fun hnames => ?_⟩
      · rw [List.head?_reverse, hlast]
      · rw [List.getLast?_reverse, hfirst]
      · rcases hsame with rfl | hsame
        · exact (Value.Alike.refl hnames).equal
        · exact (hsame.eq_iff_alike.1 rfl).equal

/-- Two lists that differ before the item that has no order. -/
def twoRows : List Value := [.list [.text "b", .null], .list [.text "a", .int 1]]

theorem sorted_agrees_twoRows :
    (∃ ys, callFunction "sorted" [.list twoRows] = .ok (.list ys) ∧ ys.Perm twoRows ∧
      callFunction "min" [.list twoRows] = .ok (ys.head?.getD .null) ∧
      callFunction "max" [.list twoRows] = .ok (.list [.text "b", .null]) ∧
      (Value.list [.text "b", .null]).equal (ys.getLast?.getD .null) = true) ∧
    ¬∃ r, callFunction "sorted" [.list (.list [.text "a", .null] :: twoRows)] = .ok r := by
  obtain ⟨hsucceeds, hresult⟩ := sorted_agrees twoRows
  have hless : Ord.compare "b" "a" = .gt := by decide
  have hfirst : Compares (.text "b") (.text "a") .gt := hless ▸ .text "b" "a"
  have hpair : Orderable (.list [.text "b", .null]) (.list [.text "a", .int 1]) :=
    (Compares.decided hfirst (by nofun)).orderable
  have hmax : callFunction "max" [.list twoRows] = .ok (.list [.text "b", .null]) := rfl
  have hrow : (Value.list [.text "b", .null]).Unambiguous :=
    .list (by simp [Value.Unambiguous.text, Value.Unambiguous.null])
  constructor
  · obtain ⟨r, hr⟩ := hsucceeds.2 fun i j hi hj hne => by
      match i, j, hi, hj with
      | 0, 1, _, _ => exact hpair
      | 1, 0, _, _ => exact hpair.symm
      | 0, 0, _, _ => exact absurd rfl hne
      | 1, 1, _, _ => exact absurd rfl hne
    obtain ⟨ys, rfl, hperm, -, -, hextremes⟩ := hresult r hr
    obtain ⟨first, last, greatest, hfirst, hlast, hmin, hmax', hequal⟩ := hextremes (by nofun)
    obtain rfl : .list [.text "b", .null] = greatest := Except.ok.inj (hmax.symm.trans hmax')
    refine ⟨ys, hr, hperm, ?_, hmax, ?_⟩
    · rw [hfirst]
      exact hmin
    · rw [hlast]
      exact hequal hrow
  · intro h
    obtain ⟨o, ho⟩ := (sorted_agrees _).1.1 h 0 2 (by decide) (by decide) (by decide)
    cases ho

end Expr

end Deskhand
