import Deskhand.Expr.Container
import Deskhand.Proofs.Equality

/-!
# Comparing values

The order of values is a relation with few rules (`Value.Compares`): numbers and truth values stand on
one line, texts have their own order, and lists are compared by the first items that differ. Nothing
else has an order. Where a comparison succeeds, the other way round gives the reverse
(`Value.Compares.swap`), only equal values come out equal (`Value.Compares.eq_iff_alike`), and whatever
follows something follows all that it follows (`Value.Compares.trans`). So comparisons are coherent with
each other and with equality (`Expr.comparisons_coherent`), although not all values can be compared.
-/

namespace Deskhand

/-- In an order, what two steps that do not go down amount to. -/
theorem compare_eq_then {α : Type} [Ord α] [Std.TransOrd α] {a b c : α} (hab : compare a b ≠ .gt)
    (hbc : compare b c ≠ .gt) : compare a c = (compare a b).then (compare b c) := by
  cases hab' : compare a b with
  | gt => exact absurd hab' hab
  | eq => exact Std.TransCmp.congr_left hab'
  | lt =>
    refine Std.TransCmp.lt_of_lt_of_isLE hab' ?_
    cases hbc' : compare b c with
    | gt => exact absurd hbc' hbc
    | eq => rfl
    | lt => rfl

/-- What is neither equal nor greater is less. -/
theorem eq_lt_of_ne {o : Ordering} (heq : o ≠ .eq) (hgt : o ≠ .gt) : o = .lt := by
  cases o with
  | lt => rfl
  | eq => exact absurd rfl heq
  | gt => exact absurd rfl hgt

namespace Value

/-- The rules by which values are ordered. -/
inductive Compares : Value → Value → Ordering → Prop
  | ranked {a b : Value} {r s : Int} (ha : a.rank? = some r) (hb : b.rank? = some s) :
      Compares a b (compare r s)
  | text (s t : String) : Compares (.text s) (.text t) (compare s t)
  | ended : Compares (.list []) (.list []) .eq
  | shorter (b : Value) (bs : List Value) : Compares (.list []) (.list (b :: bs)) .lt
  | longer (a : Value) (as : List Value) : Compares (.list (a :: as)) (.list []) .gt
  | further {a b : Value} {as bs : List Value} {o : Ordering} (h : Compares a b .eq)
      (hrest : Compares (.list as) (.list bs) o) : Compares (.list (a :: as)) (.list (b :: bs)) o
  | decided {a b : Value} {as bs : List Value} {o : Ordering} (h : Compares a b o) (hne : o ≠ .eq) :
      Compares (.list (a :: as)) (.list (b :: bs)) o

variable {a b c : Value} {o o' : Ordering}

/-! ## The rules are what is computed -/

/-- What is neither two lists nor two texts is compared as numbers, if both are such. -/
theorem order_of_quantity? {x y : Quantity} {o : Ordering} (ha : quantity? a = some x)
    (hb : quantity? b = some y) (h : x.toBinary64.order? y.toBinary64 = some o) :
    order a b = .ok o := by
  have hlist : ∀ as bs, a = .list as → b = .list bs → False := by
    rintro _ _ rfl _
    cases ha
  have htext : ∀ s t, a = .text s → b = .text t → False := by
    rintro _ _ rfl _
    cases ha
  rw [order.eq_3 _ _ hlist htext, ha, hb]
  dsimp only
  rw [h]

theorem order_of_rank? {r s : Int} (ha : a.rank? = some r) (hb : b.rank? = some s) :
    order a b = .ok (compare r s) := by
  obtain ⟨x, hx, rfl, hxnum⟩ := exists_quantity ha
  obtain ⟨y, hy, rfl, hynum⟩ := exists_quantity hb
  exact order_of_quantity? hx hy (Binary64.order?_eq_compare hxnum hynum)

theorem order_cons (a b : Value) (as bs : List Value) :
    order (.list (a :: as)) (.list (b :: bs)) =
      (order a b).bind fun o => if o = .eq then order (.list as) (.list bs) else .ok o := by
  simp only [order, orderItems]
  cases order a b with
  | error e => rfl
  | ok o => cases o <;> rfl

theorem Compares.order_eq (h : Compares a b o) : order a b = .ok o := by
  induction h with
  | ranked ha hb => exact order_of_rank? ha hb
  | text s t => rfl
  | ended => rfl
  | shorter b bs => rfl
  | longer a as => rfl
  | further _ _ ih ihrest => rw [order_cons, ih, Except.bind, if_pos rfl, ihrest]
  | decided _ hne ih => rw [order_cons, ih, Except.bind, if_neg hne]

/-- Values of other kinds have no order, unless both calculate as numbers. -/
theorem order_eq_error (hlist : ∀ as bs, a = .list as → b = .list bs → False)
    (htext : ∀ s t, a = .text s → b = .text t → False) (hrank : a.rank? = none ∨ b.rank? = none) :
    order a b = .error (.kinds a.kindName b.kindName) := by
  have hnone : quantity? a = none ∨ quantity? b = none :=
    hrank.imp Option.map_eq_none_iff.1 Option.map_eq_none_iff.1
  rw [order.eq_3 _ _ hlist htext]
  split
  · next x y hx hy => rcases hnone with h | h <;> simp_all
  · rfl

theorem compares_of_not_list (hlist : ∀ as bs, a = .list as → b = .list bs → False)
    (h : order a b = .ok o) : Compares a b o := by
  by_cases htext : ∃ s t, a = .text s ∧ b = .text t
  · obtain ⟨s, t, rfl, rfl⟩ := htext
    cases h
    exact .text s t
  · have htext' : ∀ s t, a = .text s → b = .text t → False := fun s t ha hb => htext ⟨s, t, ha, hb⟩
    cases ha : a.rank? with
    | none =>
      rw [order_eq_error hlist htext' (.inl ha)] at h
      cases h
    | some r =>
      cases hb : b.rank? with
      | none =>
        rw [order_eq_error hlist htext' (.inr hb)] at h
        cases h
      | some s =>
        rw [order_of_rank? ha hb] at h
        cases h
        exact .ranked ha hb

theorem compares_of_order (h : order a b = .ok o) : Compares a b o := by
  induction a using Value.induction generalizing b o with
  | list items ih =>
    cases b with
    | list others =>
      induction items generalizing others with
      | nil =>
        cases others with
        | nil =>
          cases h
          exact .ended
        | cons b bs =>
          cases h
          exact .shorter b bs
      | cons a as ihitems =>
        cases others with
        | nil =>
          cases h
          exact .longer a as
        | cons b bs =>
          rw [order_cons] at h
          cases hhead : order a b with
          | error e =>
            rw [hhead] at h
            cases h
          | ok o' =>
            rw [hhead, Except.bind] at h
            have hcompares := ih a List.mem_cons_self hhead
            by_cases heq : o' = .eq
            · rw [if_pos heq] at h
              subst heq
              exact .further hcompares
                (ihitems (fun v hv => ih v (List.mem_cons_of_mem _ hv)) bs h)
            · rw [if_neg heq] at h
              cases h
              exact .decided hcompares heq
    | _ => exact compares_of_not_list (by nofun) h
  | _ => exact compares_of_not_list (by nofun) h

theorem order_eq_ok_iff : order a b = .ok o ↔ Compares a b o := ⟨compares_of_order, Compares.order_eq⟩

namespace Compares

theorem unique (h : Compares a b o) (h' : Compares a b o') : o = o' :=
  Except.ok.inj (h.order_eq.symm.trans h'.order_eq)

/-- The other way round, a comparison gives the reverse. -/
theorem swap (h : Compares a b o) : Compares b a o.swap := by
  induction h with
  | @ranked _ _ r s ha hb =>
    rw [← Std.OrientedCmp.eq_swap]
    exact .ranked hb ha
  | text s t =>
    rw [← Std.OrientedCmp.eq_swap]
    exact .text t s
  | ended => exact .ended
  | shorter b bs => exact .longer b bs
  | longer a as => exact .shorter a as
  | further _ _ ih ihrest => exact .further ih ihrest
  | decided _ hne ih => exact .decided ih fun heq => hne (Ordering.swap_inj.1 heq)

theorem swap_iff : Compares a b o ↔ Compares b a o.swap :=
  ⟨swap, fun h => Ordering.swap_swap (o := o) ▸ h.swap⟩

/-- What can be compared comes out equal exactly if it is equal. -/
theorem eq_iff_alike (h : Compares a b o) : o = .eq ↔ Alike a b := by
  induction h with
  | @ranked a b r s ha hb =>
    rw [Std.compare_eq_iff_eq, ← equal_iff_alike, equal_of_rank? ha hb, decide_eq_true_iff]
  | text s t =>
    rw [Std.compare_eq_iff_eq]
    constructor
    · rintro rfl
      exact .same rfl (by nofun) (.refl (.text s))
    · intro h
      cases h.eq_text
      rfl
  | ended => exact ⟨fun _ => .nil, fun _ => rfl⟩
  | shorter b bs =>
    refine ⟨by nofun, fun h => ?_⟩
    cases h.eq_nil
  | longer a as =>
    refine ⟨by nofun, fun h => ?_⟩
    obtain ⟨_, _, hnil, -⟩ := h.exists_cons
    cases hnil
  | further _ _ ih ihrest =>
    rw [ihrest]
    refine ⟨fun hrest => .cons (ih.1 rfl) hrest, fun h => ?_⟩
    obtain ⟨_, _, ⟨⟩, -, hrest⟩ := h.exists_cons
    exact hrest
  | decided _ hne ih =>
    refine ⟨fun heq => absurd heq hne, fun h => ?_⟩
    obtain ⟨_, _, ⟨⟩, hhead, -⟩ := h.exists_cons
    exact ih.2 hhead

/-- Two values that are equal to a third one are not one less than the other. -/
theorem eq_of_alike (h : Compares a b o) (ha : Alike a c) (hb : Alike b c) : o = .eq := by
  induction h generalizing c with
  | @ranked _ _ r s har hbr =>
    have hrank : some r = some s := by rw [← har, ← hbr, ha.rank?_eq, hb.rank?_eq]
    cases hrank
    exact Std.compare_self
  | text s t =>
    cases ha.eq_text
    cases hb.eq_text
    exact Std.compare_self
  | ended => rfl
  | shorter b bs =>
    cases ha.eq_nil
    obtain ⟨_, _, hnil, -⟩ := hb.exists_cons
    cases hnil
  | longer a as =>
    cases hb.eq_nil
    obtain ⟨_, _, hnil, -⟩ := ha.exists_cons
    cases hnil
  | further _ _ _ ihrest =>
    obtain ⟨_, _, rfl, -, harest⟩ := ha.exists_cons
    obtain ⟨_, _, ⟨⟩, -, hbrest⟩ := hb.exists_cons
    exact ihrest harest hbrest
  | decided _ _ ih =>
    obtain ⟨_, _, rfl, hahead, -⟩ := ha.exists_cons
    obtain ⟨_, _, ⟨⟩, hbhead, -⟩ := hb.exists_cons
    exact ih hahead hbhead

/-- Two comparisons that do not go down amount to one. -/
theorem trans (h : Compares a b o) (h' : Compares b c o') (ho : o ≠ .gt) (ho' : o' ≠ .gt) :
    Compares a c (o.then o') := by
  induction h generalizing c o' with
  | @ranked a b r s ha hb =>
    cases h' with
    | ranked hb' hc =>
      rw [hb] at hb'
      cases hb'
      rw [← compare_eq_then ho ho']
      exact .ranked ha hc
    | _ => cases hb
  | text s t =>
    cases h' with
    | ranked hb' _ => cases hb'
    | text t u =>
      rw [← compare_eq_then ho ho']
      exact .text s u
  | ended => exact h'
  | shorter b bs =>
    cases h' with
    | ranked hb' _ => cases hb'
    | longer _ _ => exact absurd rfl ho'
    | further _ _ => exact .shorter _ _
    | decided _ _ => exact .shorter _ _
  | longer a as => exact absurd rfl ho
  | @further _ _ _ _ o hhead hrest ih ihrest =>
    cases h' with
    | ranked hb' _ => cases hb'
    | longer _ _ => exact absurd rfl ho'
    | further hhead' hrest' => exact .further (ih hhead' (by nofun) (by nofun)) (ihrest hrest' ho ho')
    | decided hhead' hne =>
      have hthen := ih hhead' (by nofun) ho'
      obtain rfl := eq_lt_of_ne hne ho'
      cases o with
      | gt => exact absurd rfl ho
      | lt => exact .decided hthen hne
      | eq => exact .decided hthen hne
  | decided hhead hne ih =>
    obtain rfl := eq_lt_of_ne hne ho
    cases h' with
    | ranked hb' _ => cases hb'
    | longer _ _ => exact absurd rfl ho'
    | further hhead' _ =>
      have hless := ih hhead' ho (by nofun)
      exact .decided hless (by nofun)
    | decided hhead' _ => exact .decided (ih hhead' ho ho') (by nofun)

end Compares

end Value

/-! ## The operators -/

namespace Expr

open Value (Compares)

variable {a b c : Value} {o : Ordering}

theorem orderOf_eq_ok : orderOf a b = .ok o ↔ Compares a b o := by
  rw [← Value.order_eq_ok_iff]
  unfold orderOf
  split
  · next h => rw [h, Except.ok.injEq, Except.ok.injEq]
  · next h => exact ⟨by nofun, fun h' => by rw [h] at h'; cases h'⟩

/-- An operator looks at the outcome of the comparison, if there is one. -/
theorem map_orderOf_eq_true {holds : Ordering → Bool} :
    (orderOf a b).map holds = .ok true ↔ ∃ o, Compares a b o ∧ holds o = true := by
  simp only [← orderOf_eq_ok]
  cases orderOf a b with
  | error e => exact ⟨by nofun, by rintro ⟨_, ⟨⟩, _⟩⟩
  | ok o =>
    constructor
    · intro h
      exact ⟨o, rfl, Except.ok.inj h⟩
    · rintro ⟨_, ⟨⟩, h⟩
      exact congrArg Except.ok h

theorem less_iff : compareValues a .less b = .ok true ↔ Compares a b .lt := by
  refine map_orderOf_eq_true.trans ⟨?_, fun h => ⟨.lt, h, rfl⟩⟩
  rintro ⟨o, h, heq⟩
  exact beq_iff_eq.1 heq ▸ h

theorem greater_iff : compareValues a .greater b = .ok true ↔ Compares a b .gt := by
  refine map_orderOf_eq_true.trans ⟨?_, fun h => ⟨.gt, h, rfl⟩⟩
  rintro ⟨o, h, heq⟩
  exact beq_iff_eq.1 heq ▸ h

theorem lessEqual_iff :
    compareValues a .lessEqual b = .ok true ↔ ∃ o, Compares a b o ∧ o ≠ .gt := by
  refine map_orderOf_eq_true.trans ?_
  simp only [bne_iff_ne]

theorem equal_iff : compareValues a .equal b = .ok true ↔ Value.Alike a b := by
  rw [← Value.equal_iff_alike]
  exact ⟨Except.ok.inj, congrArg Except.ok⟩

/-- One of the three holds, and only one. -/
def ExactlyOne (p q r : Prop) : Prop := (p ∧ ¬q ∧ ¬r) ∨ (¬p ∧ q ∧ ¬r) ∨ (¬p ∧ ¬q ∧ r)

/-- Of values that can be compared one is less, or they are equal, or one is greater. -/
theorem exactlyOne_of_compares (h : Compares a b o) :
    ExactlyOne (compareValues a .less b = .ok true) (compareValues a .equal b = .ok true)
      (compareValues a .greater b = .ok true) := by
  rw [less_iff, equal_iff, greater_iff]
  have hlt : Compares a b .lt ↔ o = .lt := ⟨h.unique, fun heq => heq ▸ h⟩
  have hgt : Compares a b .gt ↔ o = .gt := ⟨h.unique, fun heq => heq ▸ h⟩
  rw [hlt, ← h.eq_iff_alike, hgt]
  unfold ExactlyOne
  cases o <;> decide

/-- Equality is an equivalence, and the order agrees with it and with itself. Values whose objects
have a name twice cannot be written down. -/
theorem comparisons_coherent :
    (Equivalence fun v w : {v : Value // v.Unambiguous} => v.1.equal w.1 = true) ∧
    (∀ a b o, Value.order a b = .ok o ↔ Value.order b a = .ok o.swap) ∧
    (∀ a b o, Value.order a b = .ok o → (o = .eq ↔ a.equal b = true)) ∧
    (∀ a b o, Value.order a b = .ok o →
      ExactlyOne (compareValues a .less b = .ok true) (compareValues a .equal b = .ok true)
        (compareValues a .greater b = .ok true)) ∧
    (∀ a b c, compareValues a .lessEqual b = .ok true → compareValues b .lessEqual c = .ok true →
      (∃ o, Value.order a c = .ok o) ∧ compareValues a .lessEqual c = .ok true) := by
  refine ⟨⟨?_, ?_, ?_⟩, ?_, ?_, ?_, ?_⟩
  · intro v
    exact (Value.Alike.refl v.2).equal
  · intro v w h
    exact ((Value.alike_of_equal h).symm v.2 w.2).equal
  · intro u v w h h'
    exact ((Value.alike_of_equal h).trans (Value.alike_of_equal h')).equal
  · intro a b o
    rw [Value.order_eq_ok_iff, Value.order_eq_ok_iff, ← Compares.swap_iff]
  · intro a b o h
    rw [Value.equal_iff_alike]
    exact (Value.compares_of_order h).eq_iff_alike
  · intro a b o h
    exact exactlyOne_of_compares (Value.compares_of_order h)
  · intro a b c hab hbc
    obtain ⟨o, hab, ho⟩ := lessEqual_iff.1 hab
    obtain ⟨o', hbc, ho'⟩ := lessEqual_iff.1 hbc
    have hac : Compares a c (o.then o') := hab.trans hbc ho ho'
    have hle : o.then o' ≠ .gt := by
      cases o with
      | lt => nofun
      | eq => exact ho'
      | gt => exact absurd rfl ho
    exact ⟨⟨_, hac.order_eq⟩, lessEqual_iff.2 ⟨_, hac, hle⟩⟩

/-- An item without an order does not matter behind one that decides. -/
theorem comparisons_coherent_lists :
    let a := Value.list [.text "a", .int 1]
    let b := Value.list [.text "a", .bool true]
    let c := Value.list [.text "b", .null]
    a.equal b = true ∧ b.equal a = true ∧ Value.order b a = .ok .eq ∧
      ¬compareValues a .less b = .ok true ∧ compareValues a .lessEqual c = .ok true := by
  intro a b c
  obtain ⟨hequivalence, hswap, heq, hone, htrans⟩ := comparisons_coherent
  have hsame : Ord.compare "a" "a" = .eq := by decide
  have hless : Ord.compare "a" "b" = .lt := by decide
  have hab : Compares a b .eq :=
    .further (hsame ▸ .text "a" "a")
      (.further (Std.compare_self (a := (Binary64.ofInt 1).rank) ▸ .ranked rfl rfl) .ended)
  have hbc : Compares b c .lt := .decided (hless ▸ .text "a" "b") (by nofun)
  have ha : a.Unambiguous :=
    .list (by simp [Value.Unambiguous.text, Value.Unambiguous.number, Value.int])
  have hb : b.Unambiguous := .list (by simp [Value.Unambiguous.text, Value.Unambiguous.bool])
  have hequal : a.equal b = true := (heq a b .eq hab.order_eq).1 rfl
  refine ⟨hequal, hequivalence.symm (x := ⟨a, ha⟩) (y := ⟨b, hb⟩) hequal,
    (hswap a b .eq).1 hab.order_eq, ?_, ?_⟩
  · rcases hone a b .eq hab.order_eq with ⟨-, h, -⟩ | ⟨h, -⟩ | ⟨-, h, -⟩
    · exact absurd (congrArg Except.ok hequal) h
    · exact h
    · exact absurd (congrArg Except.ok hequal) h
  · exact (htrans a b c (lessEqual_iff.2 ⟨_, hab, by nofun⟩) (lessEqual_iff.2 ⟨_, hbc, by nofun⟩)).2

end Expr

end Deskhand
