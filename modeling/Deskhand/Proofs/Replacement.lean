import Deskhand.Expr.Container
import Deskhand.Proofs.Equality

/-!
# Replacing a value inside a container

A place inside a container is given by what lies around it (`Value.Context`). If another value is put
there, the container stays equal to what it was exactly if the two values are equal, as long as only
lists lie around the place; an object around it asks for the same value (`Expr.equality_of_filled`). So
lists take 1, 1.0 and True for one another and objects do not, and equality is respected by lists alone
(`Value.not_respected_by_objects`).
-/

namespace Deskhand

namespace Value

/-- A place inside a container: what stands before and behind it, from the outermost list or object
inward. -/
inductive Context where
  | here
  | item (before : List Value) (inner : Context) (after : List Value)
  | entry (before : Entries Value) (name : String) (inner : Context) (after : Entries Value)

namespace Context

/-- The container with a value at the place. -/
def fill : Context → Value → Value
  | here, v => v
  | item before inner after, v => .list (before ++ inner.fill v :: after)
  | entry before name inner after, v => .object (before ++ (name, inner.fill v) :: after)

/-- Whether one of the containers around the place is an object. -/
def inObject : Context → Bool
  | here => false
  | item _ inner _ => inner.inObject
  | entry _ _ _ _ => true

end Context

variable {a b : Value} {c : Context}

/-! ## One item or entry replaced -/

theorem forall₂_replaced {R : Value → Value → Prop} {before after : List Value}
    (hbefore : ∀ v ∈ before, R v v) (hafter : ∀ v ∈ after, R v v) :
    List.Forall₂ R (before ++ a :: after) (before ++ b :: after) ↔ R a b := by
  induction before with
  | nil => exact List.forall₂_cons.trans (and_iff_left (forall₂_refl_of_mem hafter))
  | cons v rest ih =>
    obtain ⟨hv, hrest⟩ := List.forall_mem_cons.1 hbefore
    exact List.forall₂_cons.trans ((and_iff_right hv).trans (ih hrest))

/-- What lies around an item is unambiguous, and the item itself. -/
theorem Unambiguous.of_item {before after : List Value}
    (h : (Value.list (before ++ a :: after)).Unambiguous) :
    (∀ v ∈ before, v.Unambiguous) ∧ a.Unambiguous ∧ ∀ v ∈ after, v.Unambiguous := by
  cases h with
  | list h =>
    obtain ⟨hbefore, hrest⟩ := List.forall_mem_append.1 h
    obtain ⟨ha, hafter⟩ := List.forall_mem_cons.1 hrest
    exact ⟨hbefore, ha, hafter⟩

theorem same_item {before after : List Value}
    (h : (Value.list (before ++ a :: after)).Unambiguous) :
    Same (.list (before ++ a :: after)) (.list (before ++ b :: after)) ↔ Same a b := by
  obtain ⟨hbefore, -, hafter⟩ := h.of_item
  exact same_list.trans
    (forall₂_replaced (fun v hv => .refl (hbefore v hv)) fun v hv => .refl (hafter v hv))

theorem equal_list {as bs : List Value} :
    (Value.list as).equal (.list bs) = true ↔ List.Forall₂ (fun a b => a.equal b = true) as bs := by
  induction as generalizing bs with
  | nil => cases bs <;> simp [equal, equalItems]
  | cons a as ih =>
    cases bs with
    | nil => simp [equal, equalItems]
    | cons b bs => rw [equal_cons, Bool.and_eq_true, List.forall₂_cons, ih]

theorem equal_item {before after : List Value}
    (h : (Value.list (before ++ a :: after)).Unambiguous) :
    (Value.list (before ++ a :: after)).equal (.list (before ++ b :: after)) = a.equal b := by
  obtain ⟨hbefore, -, hafter⟩ := h.of_item
  rw [Bool.eq_iff_iff, equal_list]
  exact forall₂_replaced (fun v hv => (Alike.refl (hbefore v hv)).equal)
    fun v hv => (Alike.refl (hafter v hv)).equal

/-- Objects that differ in one value at most are the same if that value is. -/
theorem same_entry {before after : Entries Value} {name : String}
    (h : (Value.object (before ++ (name, a) :: after)).Unambiguous) :
    Same (.object (before ++ (name, a) :: after)) (.object (before ++ (name, b) :: after)) ↔
      Same a b := by
  cases h with
  | object hnames hvalues =>
    have hnames' : Entries.names (before ++ (name, b) :: after) =
        Entries.names (before ++ (name, a) :: after) := by
      simp only [Entries.names, List.map_append, List.map_cons]
    have hget : ∀ other v, Entries.get? other (before ++ (name, b) :: after) = some v ↔
        (other, v) ∈ before ++ (name, b) :: after :=
      fun _ _ => Entries.get?_eq_some_iff (hnames'.symm ▸ hnames)
    have hb : (name, b) ∈ before ++ (name, b) :: after :=
      List.mem_append_right _ List.mem_cons_self
    rw [same_object]
    constructor
    · rintro ⟨-, hsame⟩
      obtain ⟨v, hv, hav⟩ := hsame (name, a) (List.mem_append_right _ List.mem_cons_self)
      rw [(hget name b).2 hb, Option.some_inj] at hv
      exact hv ▸ hav
    · intro hab
      refine ⟨by simp only [List.length_append, List.length_cons], fun e he => ?_⟩
      have hrefl : Same e.2 e.2 := .refl (hvalues e he)
      rcases List.mem_append.1 he with hbefore | hrest
      · exact ⟨e.2, (hget _ _).2 (List.mem_append_left _ hbefore), hrefl⟩
      · rcases List.mem_cons.1 hrest with rfl | hafter
        · exact ⟨b, (hget _ _).2 hb, hab⟩
        · have hmem : e ∈ before ++ (name, b) :: after :=
            List.mem_append_right _ (List.mem_cons_of_mem _ hafter)
          exact ⟨e.2, (hget _ _).2 hmem, hrefl⟩

/-! ## Any depth -/

/-- The same value stands for itself in every container, and no other one does. -/
theorem same_fill (h : (c.fill a).Unambiguous) : Same (c.fill a) (c.fill b) ↔ Same a b := by
  induction c with
  | here => exact Iff.rfl
  | item before inner after ih => exact (same_item h).trans (ih h.of_item.2.1)
  | entry before name inner after ih =>
    refine (same_entry h).trans (ih ?_)
    cases h with
    | object _ hvalues => exact hvalues _ (List.mem_append_right _ List.mem_cons_self)

theorem equal_fill (h : (c.fill a).Unambiguous) :
    (c.fill a).equal (c.fill b) = if c.inObject then a.same b else a.equal b := by
  induction c with
  | here => rfl
  | item before inner after ih => exact (equal_item h).trans (ih h.of_item.2.1)
  | entry before name inner after =>
    -- an object is compared by identity, and so is all that lies in it
    have hobject := equal_of_rank?_eq_none (a := Context.fill (.entry before name inner after) a)
      (b := Context.fill (.entry before name inner after) b) (.inl rfl) (.inl (by nofun))
    rw [hobject]
    exact Bool.eq_iff_iff.2 (same_fill h)

theorem Same.alike_of_not_list (hlist : ∀ items, a ≠ .list items) (h : Same a b) : Alike a b := by
  cases ha : a.rank? with
  | none => exact .same ha hlist h
  | some r => exact .ranked ha (h.rank?_eq ▸ ha)

theorem Same.equal (h : Same a b) : a.equal b = true := by
  induction a using Value.induction generalizing b with
  | list items ih =>
    cases b with
    | list others =>
      have hitems := same_list.1 h
      clear h
      refine equal_list.2 ?_
      induction hitems with
      | nil => exact .nil
      | cons hhead _ ihitems =>
        refine .cons (ih _ List.mem_cons_self hhead) (ihitems fun v hv => ?_)
        exact ih v (List.mem_cons_of_mem _ hv)
    | _ => cases h
  | _ => exact (h.alike_of_not_list (by nofun)).equal

theorem equal_one_true : (int 1).equal (.bool true) = true :=
  (Alike.ranked (r := (Binary64.ofInt 1).rank) rfl rfl).equal

/-- Equal values that are not the same one do not stand for one another inside an object. -/
theorem not_respected_by_objects : ¬∀ (c : Context) (a b : Value), (c.fill a).Unambiguous →
    (c.fill b).Unambiguous → a.equal b = true → (c.fill a).equal (c.fill b) = true := by
  intro h
  have hentry : ∀ v : Value, v.Unambiguous →
      ((Context.entry [] "k" .here []).fill v).Unambiguous := by
    intro v hv
    exact .object (List.pairwise_singleton ..) (List.forall_mem_singleton.2 hv)
  have hequal := h _ _ _ (hentry (.int 1) (.number _)) (hentry (.bool true) (.bool true)) equal_one_true
  cases hequal

end Value

namespace Expr

open Value (Context)

variable {a b : Value} {c : Context}

/-- With another value at one of its places a container is equal to what it was if the two values are
equal, or, where an object lies around the place, if they are the same; so the same value can stand for
itself everywhere. -/
theorem equality_of_filled (h : (c.fill a).Unambiguous) :
    compareValues (c.fill a) .equal (c.fill b) =
      .ok (if c.inObject then a.same b else a.equal b) ∧
    (a.same b = true → compareValues (c.fill a) .equal (c.fill b) = .ok true) := by
  have hfill : compareValues (c.fill a) .equal (c.fill b) =
      .ok (if c.inObject then a.same b else a.equal b) := congrArg Except.ok (Value.equal_fill h)
  refine ⟨hfill, fun hsame => ?_⟩
  rw [hfill, hsame, Value.Same.equal hsame, ite_self]

/-- In lists one and True are equal, whatever lies beside them; in an object they are not. -/
theorem equality_of_filled_rows :
    let rows : Context := .item [.text "a"] (.item [] .here [.object [("k", .null)]]) [.null]
    let sheet : Context := .entry [("n", .null)] "rows" rows []
    let one : Value := .int 1
    (sheet.fill one).Unambiguous ∧
      compareValues (rows.fill one) .equal (rows.fill (.bool true)) = .ok true ∧
      compareValues (sheet.fill one) .equal (sheet.fill (.bool true)) = .ok false ∧
      compareValues (sheet.fill one) .equal (sheet.fill one) = .ok true := by
  intro rows sheet one
  have hkey : (Value.object [("k", .null)]).Unambiguous :=
    .object (by decide) (List.forall_mem_singleton.2 .null)
  have hrow : (Value.list [one, .object [("k", .null)]]).Unambiguous := by
    refine .list (List.forall_mem_cons.2 ⟨.number _, ?_⟩)
    exact List.forall_mem_singleton.2 hkey
  have hrows : (rows.fill one).Unambiguous := by
    refine .list (List.forall_mem_cons.2 ⟨.text "a", ?_⟩)
    exact List.forall_mem_cons.2 ⟨hrow, List.forall_mem_singleton.2 .null⟩
  have hsheet : (sheet.fill one).Unambiguous := by
    refine .object (by decide) (List.forall_mem_cons.2 ⟨.null, ?_⟩)
    exact List.forall_mem_singleton.2 hrows
  refine ⟨hsheet, ?_, (equality_of_filled hsheet).1, (equality_of_filled hsheet).2 rfl⟩
  rw [(equality_of_filled hrows).1, if_neg (by decide)]
  exact congrArg Except.ok Value.equal_one_true

end Expr

end Deskhand
