import Mathlib.Data.List.Forall2
import Mathlib.Data.List.Perm.Subperm
import Deskhand.Json.Reader
import Deskhand.Proofs.Callees
import Deskhand.Value.Compare

/-!
# Equality of values

Both `Value.same` and `Value.equal` are equivalences. They compare lists item by item, and objects name
by name whatever the order, for which an object must have every name once (`Value.Unambiguous`); every
value that a JSON text denotes is of that kind (`Json.unambiguous_of_read`). What calculates as a number
is equal by its place among the numbers (`Value.rank?`), which makes `equal` the union of a few simple
rules (`Value.Alike`).
-/

namespace Deskhand

/-! ## The line of numbers -/

namespace Binary64

/-- Where a number stands among all numbers: at its count of units, an infinity outside of them. -/
def rank : Binary64 → Int
  | .finite x => x.value
  | .infinite negative => if negative then -unitsLimit else unitsLimit
  | .nan => 0

theorem natAbs_value_lt (x : Finite64) : x.value.natAbs < unitsLimit := by
  rw [x.natAbs_value]
  exact x.fits.1

theorem unitsLimit_pos : 0 < unitsLimit := by
  unfold unitsLimit
  generalize limitExponent = e
  exact Nat.two_pow_pos e

/-- The order of numbers is the order of their places. -/
theorem order?_eq_compare {x y : Binary64} (hx : x ≠ .nan) (hy : y ≠ .nan) :
    x.order? y = some (compare x.rank y.rank) := by
  have hlimit := unitsLimit_pos
  cases x with
  | nan => exact absurd rfl hx
  | finite x =>
    have hvalue := natAbs_value_lt x
    cases y with
    | nan => exact absurd rfl hy
    | finite y => rfl
    | infinite b =>
      refine congrArg some (Eq.symm ?_)
      cases b with
      | false => exact Int.compare_eq_lt.2 (show x.value < (unitsLimit : Int) by omega)
      | true => exact Int.compare_eq_gt.2 (show -(unitsLimit : Int) < x.value by omega)
  | infinite a =>
    cases y with
    | nan => exact absurd rfl hy
    | finite y =>
      have hvalue := natAbs_value_lt y
      refine congrArg some (Eq.symm ?_)
      cases a with
      | false => exact Int.compare_eq_gt.2 (show y.value < (unitsLimit : Int) by omega)
      | true => exact Int.compare_eq_lt.2 (show -(unitsLimit : Int) < y.value by omega)
    | infinite b =>
      refine congrArg some (Eq.symm ?_)
      cases a <;> cases b
      · exact Int.compare_eq_eq.2 rfl
      · exact Int.compare_eq_gt.2 (show -(unitsLimit : Int) < unitsLimit by omega)
      · exact Int.compare_eq_lt.2 (show -(unitsLimit : Int) < unitsLimit by omega)
      · exact Int.compare_eq_eq.2 rfl

theorem same_eq_decide {x y : Binary64} (hx : x ≠ .nan) (hy : y ≠ .nan) :
    x.same y = decide (x.rank = y.rank) := by
  unfold same
  rw [order?_eq_compare hx hy, Bool.eq_iff_iff, beq_iff_eq, decide_eq_true_iff, Option.some_inj,
    Std.compare_eq_iff_eq]

theorem ofInt_ne_nan (n : Int) : ofInt n ≠ .nan := by
  unfold ofInt ofQuotient ofUnits
  split <;> nofun

end Binary64

namespace Value

/-- What holds of a value if it holds of its items or entries holds of all values. -/
theorem induction {P : Value → Prop} (null : P .null) (bool : ∀ b, P (.bool b))
    (number : ∀ n, P (.number n)) (text : ∀ s, P (.text s))
    (list : ∀ items, (∀ v ∈ items, P v) → P (.list items))
    (object : ∀ es, (∀ e ∈ es, P e.2) → P (.object es)) (v : Value) : P v := by
  refine Value.rec (motive_1 := P) (motive_2 := fun items => ∀ v ∈ items, P v)
    (motive_3 := fun es => ∀ e ∈ es, P e.2) (motive_4 := fun e => P e.2)
    null bool number text list object ?_ ?_ ?_ ?_ ?_ v
  · exact fun _ h => absurd h List.not_mem_nil
  · exact fun _ _ hv hvs => List.forall_mem_cons.2 ⟨hv, hvs⟩
  · exact fun _ h => absurd h List.not_mem_nil
  · exact fun _ _ he hes => List.forall_mem_cons.2 ⟨he, hes⟩
  · exact fun _ _ hv => hv

/-- Every object in the value has each of its names once. -/
inductive Unambiguous : Value → Prop
  | null : Unambiguous .null
  | bool (b : Bool) : Unambiguous (.bool b)
  | number (n : Number) : Unambiguous (.number n)
  | text (s : String) : Unambiguous (.text s)
  | list {items : List Value} (h : ∀ v ∈ items, Unambiguous v) : Unambiguous (.list items)
  | object {es : Entries Value} (hnames : es.names.Nodup) (h : ∀ e ∈ es, Unambiguous e.2) :
      Unambiguous (.object es)

/-! ## Item by item -/

section Items

open List (Forall₂)

variable {R : Value → Value → Prop} {as bs cs : List Value}

theorem forall₂_refl_of_mem (h : ∀ a ∈ as, R a a) : Forall₂ R as as := List.forall₂_same.2 h

theorem forall₂_symm_of_mem (h : ∀ a ∈ as, ∀ b ∈ bs, R a b → R b a) (hab : Forall₂ R as bs) :
    Forall₂ R bs as := by
  induction hab with
  | nil => exact .nil
  | cons ha _ ih =>
    refine .cons (h _ List.mem_cons_self _ List.mem_cons_self ha) (ih fun a hmem b hmem' => ?_)
    exact h a (List.mem_cons_of_mem _ hmem) b (List.mem_cons_of_mem _ hmem')

theorem forall₂_trans_of_mem (h : ∀ a ∈ as, ∀ b c, R a b → R b c → R a c) (hab : Forall₂ R as bs)
    (hbc : Forall₂ R bs cs) : Forall₂ R as cs := by
  induction hab generalizing cs with
  | nil => exact hbc
  | cons ha _ ih =>
    cases hbc with
    | cons hb hrest =>
      refine .cons (h _ List.mem_cons_self _ _ ha hb) (ih (fun a hmem => ?_) hrest)
      exact h a (List.mem_cons_of_mem _ hmem)

end Items

/-! ## Identity of values -/

/-- The two are the same value. -/
def Same (a b : Value) : Prop := same a b = true

theorem same_list {as bs : List Value} : Same (.list as) (.list bs) ↔ List.Forall₂ Same as bs := by
  unfold Same
  rw [same]
  induction as generalizing bs with
  | nil => cases bs <;> simp [sameItems]
  | cons a as ih =>
    cases bs with
    | nil => simp [sameItems]
    | cons b bs => simp [sameItems, ih]

theorem sameEntries_iff {es fs : Entries Value} : sameEntries es fs = true ↔
    ∀ e ∈ es, ∃ v, fs.get? e.1 = some v ∧ Same e.2 v := by
  induction es with
  | nil => simp [sameEntries]
  | cons e rest ih =>
    obtain ⟨name, a⟩ := e
    rw [sameEntries, Bool.and_eq_true, ih, List.forall_mem_cons]
    refine and_congr_left' ?_
    cases fs.get? name with
    | none => simp
    | some v => simp [Same]

theorem same_object {es fs : Entries Value} : Same (.object es) (.object fs) ↔
    es.length = fs.length ∧ ∀ e ∈ es, ∃ v, fs.get? e.1 = some v ∧ Same e.2 v := by
  unfold Same
  rw [same, Bool.and_eq_true, beq_iff_eq, sameEntries_iff]
  rfl

end Value

theorem Number.same_comm (m n : Number) : m.same n = n.same m := by
  cases m <;> cases n <;> simp only [Number.same, Bool.beq_comm]

theorem Number.same_self (n : Number) : n.same n = true := by
  cases n <;> simp [Number.same]

theorem Number.same_trans {k m n : Number} (h : k.same m = true) (h' : m.same n = true) :
    k.same n = true := by
  cases k <;> cases m <;> cases n <;> simp_all [Number.same]

namespace Value

variable {a b c : Value}

theorem Same.refl (h : a.Unambiguous) : Same a a := by
  induction h with
  | null => rfl
  | bool t => exact beq_self_eq_true t
  | number n => exact n.same_self
  | text s => exact beq_self_eq_true s
  | list _ ih => exact same_list.2 (forall₂_refl_of_mem ih)
  | object hnames _ ih =>
    refine same_object.2 ⟨rfl, fun e he => ⟨e.2, ?_, ih e he⟩⟩
    exact (Entries.get?_eq_some_iff hnames).2 he

/-- If one object has all names of another one and no more names than it, they have the same names. -/
theorem names_subset_of_length {es fs : Entries Value} (hnames : es.names.Nodup)
    (hlength : es.length = fs.length) (hsub : es.names ⊆ fs.names) : fs.names ⊆ es.names := by
  have hperm : es.names.Perm fs.names := by
    refine (List.subperm_of_subset hnames hsub).perm_of_length_le ?_
    simp only [Entries.names, List.length_map]
    omega
  exact hperm.symm.subset

theorem Same.symm (ha : a.Unambiguous) (hb : b.Unambiguous) (h : Same a b) : Same b a := by
  induction ha generalizing b with
  | null => cases b <;> exact h
  | bool t =>
    cases b with
    | bool u => exact (Bool.beq_comm).trans h
    | _ => cases h
  | number m =>
    cases b with
    | number n => exact (n.same_comm m).trans h
    | _ => cases h
  | text s =>
    cases b with
    | text u => exact (Bool.beq_comm).trans h
    | _ => cases h
  | list _ ih =>
    cases hb with
    | list hbs =>
      exact same_list.2 (forall₂_symm_of_mem (fun a ha b hb => ih a ha (hbs b hb)) (same_list.1 h))
    | _ => cases h
  | @object es hnames _ ih =>
    cases hb with
    | @object fs hnames' hfs =>
      obtain ⟨hlength, hes⟩ := same_object.1 h
      have hsub : es.names ⊆ fs.names := by
        intro name hname
        obtain ⟨e, he, rfl⟩ := List.mem_map.1 hname
        obtain ⟨v, hget, -⟩ := hes e he
        exact List.mem_map.2 ⟨(e.1, v), Entries.mem_of_get? hget, rfl⟩
      refine same_object.2 ⟨hlength.symm, fun f hf => ?_⟩
      obtain ⟨e, he, hname⟩ := List.mem_map.1
        (names_subset_of_length hnames hlength hsub (List.mem_map_of_mem hf))
      obtain ⟨v, hget, hsame⟩ := hes e he
      have hf' : fs.get? e.1 = some f.2 := (Entries.get?_eq_some_iff hnames').2 (hname ▸ hf)
      obtain rfl : f.2 = v := Option.some.inj (hf'.symm.trans hget)
      refine ⟨e.2, ?_, ih e he (hfs f hf) hsame⟩
      rw [← hname]
      exact (Entries.get?_eq_some_iff hnames).2 he
    | _ => cases h

theorem Same.trans (h : Same a b) (h' : Same b c) : Same a c := by
  induction a using Value.induction generalizing b c with
  | null => cases b <;> first | exact h' | cases h
  | bool t =>
    cases b with
    | bool u => exact (beq_iff_eq.1 h) ▸ h'
    | _ => cases h
  | number m =>
    cases b with
    | number n =>
      cases c with
      | number k => exact Number.same_trans h h'
      | _ => cases h'
    | _ => cases h
  | text s =>
    cases b with
    | text u => exact (beq_iff_eq.1 h) ▸ h'
    | _ => cases h
  | list as ih =>
    cases b with
    | list bs =>
      cases c with
      | list cs =>
        refine same_list.2 (forall₂_trans_of_mem ?_ (same_list.1 h) (same_list.1 h'))
        exact fun a ha b c => ih a ha
      | _ => cases h'
    | _ => cases h
  | object es ih =>
    cases b with
    | object fs =>
      cases c with
      | object gs =>
        obtain ⟨hlength, hes⟩ := same_object.1 h
        obtain ⟨hlength', hfs⟩ := same_object.1 h'
        refine same_object.2 ⟨hlength.trans hlength', fun e he => ?_⟩
        obtain ⟨v, hget, hv⟩ := hes e he
        obtain ⟨u, hget', hu⟩ := hfs (e.1, v) (Entries.mem_of_get? hget)
        exact ⟨u, hget', ih e he hv hu⟩
      | _ => cases h'
    | _ => cases h

/-! ## Equality of expressions -/

/-- Where a value stands among all numbers, if it calculates as one. -/
def rank? (v : Value) : Option Int := (quantity? v).map fun x => x.toBinary64.rank

theorem toBinary64_ne_nan {v : Value} {x : Quantity} (h : quantity? v = some x) :
    x.toBinary64 ≠ .nan := by
  unfold quantity? at h
  split at h
  · split at h
    all_goals
      cases h
      exact Binary64.ofInt_ne_nan _
  · cases h
    nofun
  · cases h
    exact Binary64.ofInt_ne_nan _
  · cases h

theorem exists_quantity {v : Value} {r : Int} (h : v.rank? = some r) :
    ∃ x, quantity? v = some x ∧ x.toBinary64.rank = r ∧ x.toBinary64 ≠ .nan := by
  obtain ⟨x, hx, hr⟩ := Option.map_eq_some_iff.1 h
  exact ⟨x, hx, hr, toBinary64_ne_nan hx⟩

theorem exists_rank_number (n : Number) : ∃ r, (Value.number n).rank? = some r := by
  cases n with
  | int n =>
    by_cases h : IsInt64 n
    · exact ⟨_, congrArg (Option.map _) (if_pos h)⟩
    · exact ⟨_, congrArg (Option.map _) (if_neg h)⟩
  | real x => exact ⟨_, rfl⟩

/-- One and zero are apart. -/
theorem rank_truth (t u : Bool) : (Value.bool t).rank? = (Value.bool u).rank? ↔ t = u := by
  have hne : (Binary64.ofInt 1).rank ≠ (Binary64.ofInt 0).rank := by decide +kernel
  cases t <;> cases u <;> simp [rank?, quantity?, Quantity.toBinary64, hne, hne.symm]

/-- What calculates as a number is a number or a truth value. -/
theorem kind_of_rank? {r : Int} (h : a.rank? = some r) :
    (∃ n, a = .number n) ∨ ∃ t, a = .bool t := by
  cases a with
  | number n => exact .inl ⟨n, rfl⟩
  | bool t => exact .inr ⟨t, rfl⟩
  | _ => cases h

/-- Numbers and truth values are equal if they stand at the same place. -/
theorem equal_of_rank? {r s : Int} (ha : a.rank? = some r) (hb : b.rank? = some s) :
    a.equal b = decide (r = s) := by
  obtain ⟨x, hx, rfl, hxnum⟩ := exists_quantity ha
  obtain ⟨y, hy, rfl, hynum⟩ := exists_quantity hb
  have hnumbers : x.toBinary64.same y.toBinary64 =
      decide (x.toBinary64.rank = y.toBinary64.rank) := Binary64.same_eq_decide hxnum hynum
  obtain ⟨m, rfl⟩ | ⟨t, rfl⟩ := kind_of_rank? ha
  · obtain ⟨n, rfl⟩ | ⟨u, rfl⟩ := kind_of_rank? hb <;> simp [equal, hx, hy, hnumbers]
  · obtain ⟨n, rfl⟩ | ⟨u, rfl⟩ := kind_of_rank? hb
    · simp [equal, hx, hy, hnumbers]
    · have htruth := rank_truth t u
      rw [ha, hb, Option.some_inj] at htruth
      rw [Bool.eq_iff_iff, decide_eq_true_iff, htruth, equal, same, beq_iff_eq]

/-- The rules by which values are equal. -/
inductive Alike : Value → Value → Prop
  | ranked {a b : Value} {r : Int} (ha : a.rank? = some r) (hb : b.rank? = some r) : Alike a b
  | nil : Alike (.list []) (.list [])
  | cons {a b : Value} {as bs : List Value} (h : Alike a b) (hrest : Alike (.list as) (.list bs)) :
      Alike (.list (a :: as)) (.list (b :: bs))
  | same {a b : Value} (hrank : a.rank? = none) (hlist : ∀ items, a ≠ .list items) (h : Same a b) :
      Alike a b

theorem equal_of_rank?_eq_none (hrank : a.rank? = none ∨ b.rank? = none)
    (hlist : (∀ items, a ≠ .list items) ∨ ∀ items, b ≠ .list items) : a.equal b = a.same b := by
  have hnone : quantity? a = none ∨ quantity? b = none :=
    hrank.imp Option.map_eq_none_iff.1 Option.map_eq_none_iff.1
  rcases hnone with h | h <;> cases a <;> cases b <;> simp_all [equal]

theorem Same.rank?_eq (h : Same a b) : a.rank? = b.rank? := by
  cases a <;> cases b <;> try cases h
  case bool.bool t u => rw [beq_iff_eq.1 h]
  case number.number m n =>
    cases m <;> cases n <;> try cases h
    case int.int m n => rw [beq_iff_eq.1 h]
    case real.real x y => exact congrArg some (beq_iff_eq.1 h)
  all_goals rfl

theorem Same.exists_list {bs : List Value} (h : Same a (.list bs)) : ∃ as, a = .list as := by
  cases a with
  | list as => exact ⟨as, rfl⟩
  | _ => cases h

theorem equal_cons (a b : Value) (as bs : List Value) :
    (Value.list (a :: as)).equal (.list (b :: bs)) =
      (a.equal b && (Value.list as).equal (.list bs)) := by
  simp only [equal, equalItems]

theorem Alike.equal (h : Alike a b) : a.equal b = true := by
  induction h with
  | ranked ha hb => exact (equal_of_rank? ha hb).trans (decide_eq_true rfl)
  | nil => rfl
  | cons _ _ ih ihrest => rw [equal_cons, ih, ihrest, Bool.and_self]
  | same hrank hlist h => exact (equal_of_rank?_eq_none (.inl hrank) (.inl hlist)).trans h

theorem alike_of_not_list (hlist : ∀ items, a ≠ .list items) (h : a.equal b = true) : Alike a b := by
  cases ha : a.rank? with
  | none => exact .same ha hlist ((equal_of_rank?_eq_none (.inl ha) (.inl hlist)).symm.trans h)
  | some r =>
    cases hb : b.rank? with
    | none =>
      have hsame : Same a b := (equal_of_rank?_eq_none (.inr hb) (.inl hlist)).symm.trans h
      rw [hsame.rank?_eq, hb] at ha
      cases ha
    | some s =>
      have hrs : r = s := of_decide_eq_true ((equal_of_rank? ha hb).symm.trans h)
      exact .ranked ha (hrs ▸ hb)

theorem alike_of_equal (h : a.equal b = true) : Alike a b := by
  induction a using Value.induction generalizing b with
  | list items ih =>
    cases b with
    | list others =>
      induction items generalizing others with
      | nil =>
        cases others with
        | nil => exact .nil
        | cons b bs => cases h
      | cons a as ihitems =>
        cases others with
        | nil => cases h
        | cons b bs =>
          rw [equal_cons, Bool.and_eq_true] at h
          refine .cons (ih a List.mem_cons_self h.1) (ihitems (fun v hv => ?_) bs h.2)
          exact ih v (List.mem_cons_of_mem _ hv)
    | _ =>
      rw [equal_of_rank?_eq_none (.inl rfl) (.inr (by nofun))] at h
      cases h
  | _ =>
    refine alike_of_not_list ?_ h
    nofun

theorem equal_iff_alike : a.equal b = true ↔ Alike a b := ⟨alike_of_equal, Alike.equal⟩

namespace Unambiguous

theorem head {as : List Value} (h : (Value.list (a :: as)).Unambiguous) : a.Unambiguous := by
  cases h with
  | list h => exact h a List.mem_cons_self

theorem tail {as : List Value} (h : (Value.list (a :: as)).Unambiguous) :
    (Value.list as).Unambiguous := by
  cases h with
  | list h => exact .list fun v hv => h v (List.mem_cons_of_mem _ hv)

end Unambiguous

namespace Alike

protected theorem refl (h : a.Unambiguous) : Alike a a := by
  induction h with
  | bool t => exact .ranked rfl rfl
  | number n =>
    obtain ⟨r, hr⟩ := exists_rank_number n
    exact .ranked hr hr
  | @list items hitems ih =>
    induction items with
    | nil => exact .nil
    | cons a as ihitems =>
      exact .cons (ih a List.mem_cons_self)
        (ihitems (fun v hv => hitems v (List.mem_cons_of_mem _ hv))
          fun v hv => ih v (List.mem_cons_of_mem _ hv))
  | null => exact .same rfl nofun (.refl .null)
  | text s => exact .same rfl nofun (.refl (.text s))
  | object hnames hes => exact .same rfl nofun (.refl (.object hnames hes))

protected theorem symm (ha : a.Unambiguous) (hb : b.Unambiguous) (h : Alike a b) : Alike b a := by
  induction h with
  | ranked har hbr => exact .ranked hbr har
  | nil => exact .nil
  | cons _ _ ih ihrest => exact .cons (ih ha.head hb.head) (ihrest ha.tail hb.tail)
  | same hrank hlist h =>
    refine .same (h.rank?_eq ▸ hrank) (fun items heq => ?_) (h.symm ha hb)
    obtain ⟨as, rfl⟩ := Same.exists_list (heq ▸ h)
    exact hlist as rfl

theorem rank?_eq (h : Alike a b) : a.rank? = b.rank? := by
  cases h with
  | ranked ha hb => exact ha.trans hb.symm
  | nil => rfl
  | cons _ _ => rfl
  | same _ _ h => exact h.rank?_eq

theorem eq_nil (h : Alike (.list []) b) : b = .list [] := by
  cases h with
  | ranked ha _ => cases ha
  | nil => rfl
  | same _ hlist _ => exact absurd rfl (hlist [])

theorem exists_cons {as : List Value} (h : Alike (.list (a :: as)) c) :
    ∃ b bs, c = .list (b :: bs) ∧ Alike a b ∧ Alike (.list as) (.list bs) := by
  cases h with
  | ranked ha _ => cases ha
  | @cons _ b _ bs h hrest => exact ⟨b, bs, rfl, h, hrest⟩
  | same _ hlist _ => exact absurd rfl (hlist _)

theorem eq_text {s : String} (h : Alike (.text s) b) : b = .text s := by
  cases h with
  | ranked ha _ => cases ha
  | same _ _ h =>
    cases b with
    | text t => rw [beq_iff_eq.1 h]
    | _ => cases h

protected theorem trans (h : Alike a b) (h' : Alike b c) : Alike a c := by
  induction h generalizing c with
  | ranked ha hb => exact .ranked ha (h'.rank?_eq ▸ hb)
  | nil => exact h'
  | cons _ _ ih ihrest =>
    obtain ⟨c, cs, rfl, h, hrest⟩ := h'.exists_cons
    exact .cons (ih h) (ihrest hrest)
  | @same a b hrank hlist h =>
    refine .same hrank hlist (h.trans ?_)
    cases h' with
    | ranked hb _ =>
      rw [h.rank?_eq, hb] at hrank
      cases hrank
    | nil => exact absurd h.exists_list.choose_spec (hlist _)
    | cons _ _ => exact absurd h.exists_list.choose_spec (hlist _)
    | same _ _ h' => exact h'

end Alike

end Value

/-! ## What texts denote -/

theorem Entries.mem_put {α : Type} {name : String} {v : α} {es : Entries α} {e : String × α}
    (h : e ∈ es.put name v) : e = (name, v) ∨ e ∈ es := by
  induction es with
  | nil => exact .inl (List.mem_singleton.1 h)
  | cons first rest ih =>
    unfold put at h
    split at h
    · next hname =>
      rcases List.mem_cons.1 h with rfl | h
      · exact .inl (by rw [hname])
      · exact .inr (List.mem_cons_of_mem _ h)
    · rcases List.mem_cons.1 h with rfl | h
      · exact .inr List.mem_cons_self
      · exact (ih h).imp_right (List.mem_cons_of_mem _)

theorem Value.Unambiguous.put {es : Entries Value} {v : Value} (hes : (Value.object es).Unambiguous)
    (hv : v.Unambiguous) (name : String) : (Value.object (es.put name v)).Unambiguous := by
  cases hes with
  | object hnames hes =>
    refine .object (Entries.nodup_put name v hnames) fun e he => ?_
    obtain rfl | he := Entries.mem_put he
    · exact hv
    · exact hes e he

namespace Json

theorem unambiguous_mergeItems {items : List Value} (h : ∀ v ∈ items, (merge v).Unambiguous) :
    ∀ v ∈ mergeItems items, v.Unambiguous := by
  induction items with
  | nil => exact fun _ hv => absurd hv List.not_mem_nil
  | cons v rest ih =>
    obtain ⟨hv, hrest⟩ := List.forall_mem_cons.1 h
    exact List.forall_mem_cons.2 ⟨hv, ih hrest⟩

theorem unambiguous_mergeEntries {bound es : Entries Value}
    (hbound : (Value.object bound).Unambiguous) (h : ∀ e ∈ es, (merge e.2).Unambiguous) :
    (Value.object (mergeEntries bound es)).Unambiguous := by
  induction es generalizing bound with
  | nil => exact hbound
  | cons e rest ih =>
    obtain ⟨he, hrest⟩ := List.forall_mem_cons.1 h
    exact ih (hbound.put he e.1) hrest

theorem unambiguous_merge (v : Value) : (merge v).Unambiguous := by
  induction v using Value.induction with
  | null => exact .null
  | bool b => exact .bool b
  | number n => exact .number n
  | text s => exact .text s
  | list items ih => exact .list (unambiguous_mergeItems ih)
  | object es ih =>
    exact unambiguous_mergeEntries (.object List.nodup_nil fun _ he => absurd he List.not_mem_nil) ih

/-- No object that a JSON text denotes has a name twice. -/
theorem unambiguous_of_read {text : String} {v : Value} (h : read text = some v) :
    v.Unambiguous := by
  obtain ⟨written, -, rfl⟩ := Option.map_eq_some_iff.1 h
  exact unambiguous_merge written

end Json

end Deskhand
