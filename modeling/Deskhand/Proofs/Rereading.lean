import Deskhand.Proofs.Assignment
import Deskhand.Proofs.TargetNames

/-!
# Writing where something was read

A target that can be read can be written to, as long as its subscripts give steps and none of them
looks up a truth value in an object (`Expr.assign_of_read`). Where the subscripts are literals that is
always so (`Expr.Target.IsLiteral`), and what was written is read again.
-/

namespace Deskhand.Expr

variable {scope : Scope} {base : Expr} {path : List Accessor} {v b c : Value}

/-! ## Reading along a path -/

theorem eval_of_eval_of {a : Accessor} (h : eval scope (a.of base) = .ok c) :
    ∃ b, eval scope base = .ok b := by
  cases a with
  | index e =>
    obtain ⟨b, hb, -⟩ := bind_eq_ok h
    exact ⟨b, hb⟩
  | key k =>
    obtain ⟨b, hb, -⟩ := bind_eq_ok h
    exact ⟨b, hb⟩

/-- What a path can be read in has a value itself. -/
theorem eval_of_eval_along (h : eval scope (along path base) = .ok v) :
    ∃ b, eval scope base = .ok b := by
  induction path generalizing base with
  | nil => exact ⟨v, h⟩
  | cons a path ih =>
    obtain ⟨c, hc⟩ := ih h
    exact eval_of_eval_of hc

/-- There is nothing but text in a text. -/
theorem text_of_eval_along {s : String} (hbase : eval scope base = .ok (.text s))
    (h : eval scope (along path base) = .ok v) : ∃ s', v = .text s' := by
  induction path generalizing base s with
  | nil =>
    cases hbase.symm.trans h
    exact ⟨s, rfl⟩
  | cons a path ih =>
    obtain ⟨c, hc⟩ : ∃ c, eval scope (a.of base) = .ok c := eval_of_eval_along h
    suffices hchar : ∃ s', c = .text s' by
      obtain ⟨s', rfl⟩ := hchar
      exact ih hc h
    cases a with
    | key k =>
      obtain ⟨b, hb, hc⟩ := bind_eq_ok hc
      rw [hbase] at hb
      cases hb
      cases hc
    | index e =>
      obtain ⟨b, hb, hc⟩ := bind_eq_ok hc
      rw [hbase] at hb
      cases hb
      obtain ⟨x, -, hc⟩ := bind_eq_ok hc
      obtain ⟨n, -, hc⟩ := bind_eq_ok hc
      dsimp only at hc
      split at hc
      · next char _ =>
        cases hc
        exact ⟨char.toString, rfl⟩
      · cases hc

/-- What an accessor reads in a list or an object stands at the place that its step leads to, unless
it is a truth value and the place an entry. -/
theorem into?_of_eval {a : Accessor} {step : Step} (hbase : eval scope base = .ok b)
    (ha : evalAccessor scope a = .ok step) (h : eval scope (a.of base) = .ok c)
    (htext : ∀ s, b ≠ .text s)
    (hplain : ∀ e es t, a = .index e → b = .object es → eval scope e ≠ .ok (.bool t)) :
    ∃ p, step.into? b = some p ∧ b.child? p = some c := by
  cases a with
  | key k =>
    cases ha
    obtain ⟨b', hb, h⟩ := bind_eq_ok h
    rw [hbase] at hb
    cases hb
    unfold attributeValue at h
    split at h
    · split at h
      · next hget =>
        cases h
        exact ⟨.entry k, rfl, hget⟩
      · cases h
    · cases h
  | index e =>
    obtain ⟨b', hb, h⟩ := bind_eq_ok h
    rw [hbase] at hb
    cases hb
    obtain ⟨x, hx, h⟩ := bind_eq_ok h
    cases b with
    | text s => exact absurd rfl (htext s)
    | list items =>
      obtain ⟨n, hn, h⟩ := bind_eq_ok h
      obtain ⟨k, rfl, -⟩ | ⟨i, hi, rfl⟩ := step_cases hx ha
      · cases hn
      · rw [hi] at hn
        cases hn
        split at h
        · next item hitem =>
          cases h
          obtain ⟨place, hplace, hget⟩ := Option.bind_eq_some_iff.1 hitem
          exact ⟨.item place, by rw [Step.into?, hplace]; rfl, hget⟩
        · cases h
    | object es =>
      have hdisplay : step.into? (.object es) = some (.entry x.display) := by
        obtain ⟨k, rfl, rfl⟩ | ⟨i, hi, rfl⟩ := step_cases hx ha
        · rfl
        · obtain rfl | ⟨t, rfl⟩ := position_eq_ok hi
          · rfl
          · exact absurd hx (hplain e es t rfl rfl)
      refine ⟨_, hdisplay, ?_⟩
      simp only [subscriptValue] at h
      split at h
      · next hget =>
        cases h
        exact hget
      · cases h
    | _ => cases h

/-! ## Writing along the path -/

theorem writeAt_of_read {new : Value} {steps : List Step} (hbase : eval scope base = .ok b)
    (hsteps : evalPath scope path = .ok steps)
    (hplain : ∀ path' e rest es t, path = path' ++ .index e :: rest →
      eval scope (along path' base) = .ok (.object es) → eval scope e ≠ .ok (.bool t))
    (h : eval scope (along path base) = .ok v)
    (htext : ∀ s, v ≠ .text s) : (writeAt (combine .set new) steps b).2 = none := by
  induction path generalizing steps base b with
  | nil =>
    cases hsteps
    rfl
  | cons a path ih =>
    unfold evalPath at hsteps
    rw [List.mapM_cons] at hsteps
    obtain ⟨step, hstep, hsteps⟩ := bind_eq_ok hsteps
    obtain ⟨rest, hrest, hsteps⟩ := bind_eq_ok hsteps
    cases hsteps
    obtain ⟨c, hc⟩ : ∃ c, eval scope (a.of base) = .ok c := eval_of_eval_along h
    have hlist : ∀ s, b ≠ .text s := by
      rintro s rfl
      obtain ⟨s', rfl⟩ := text_of_eval_along hbase h
      exact htext s' rfl
    obtain ⟨p, hp, hchild⟩ := into?_of_eval hbase hstep hc hlist fun e es t ha hb =>
      hplain [] e path es t (by rw [ha]; rfl) (by rw [← hb]; exact hbase)
    rw [writeAt_cons hp, hchild, Option.getD_some]
    refine ih hc hrest (fun path' e rest es t hpath => ?_) h
    exact hplain (a :: path') e rest es t (by rw [hpath]; rfl)

/-- Writing at the end of steps does not change where they lead. -/
theorem leads?_writeAt {change : Value → Except ExprError Value} {steps : List Step}
    (h : (writeAt change steps v).2 = none) :
    leads? steps (writeAt change steps v).1 = leads? steps v := by
  induction steps generalizing v with
  | nil => rfl
  | cons step rest ih =>
    cases hp : step.into? v with
    | none =>
      obtain ⟨e, he⟩ := writeAt_blocked hp
      rw [he] at h
      cases h
    | some p =>
      rw [writeAt_cons hp] at h ⊢
      rw [leads?, leads?, into?_setChild, hp, Option.bind_some, Option.bind_some,
        Value.child?_setChild_self (takes_of_into? hp), Option.getD_some, ih h]

/-! ## Assignments -/

variable {target : Target} {new old : Value} {vars : Entries Value} {steps : List Step}

/-- An assignment to a target whose name is bound writes into the value of the name. -/
theorem assign_of_bound (op : AssignOp) (hsteps : evalPath vars.get? target.path = .ok steps)
    (hold : vars.get? target.name = some old) :
    assign target op new vars =
      (vars.put target.name (writeAt (combine op new) steps old).1,
        (writeAt (combine op new) steps old).2) := by
  unfold assign
  rw [hsteps]
  dsimp only
  split
  · next hplain =>
    obtain ⟨rfl, rfl⟩ := hplain
    rfl
  · rw [hold]

/-- The name in front of a target that was read is bound. -/
theorem bound_of_read (h : eval vars.get? target.tree = .ok v) :
    ∃ old, vars.get? target.name = some old := by
  obtain ⟨b, hb⟩ : ∃ b, eval vars.get? (.name target.name) = .ok b := eval_of_eval_along h
  rw [eval] at hb
  split at hb
  · next old hold => exact ⟨old, hold⟩
  · cases hb

/-- A target that was read can be written to. -/
theorem assign_of_read (hsteps : evalPath vars.get? target.path = .ok steps)
    (hplain : target.Plain vars) (h : eval vars.get? target.tree = .ok v) (htext : ∀ s, v ≠ .text s)
    (hold : vars.get? target.name = some old) :
    assign target .set new vars =
      (vars.put target.name (writeAt (combine .set new) steps old).1, none) := by
  have hname : eval vars.get? (.name target.name) = .ok old := by
    rw [eval, hold]
  rw [assign_of_bound .set hsteps hold,
    writeAt_of_read hname hsteps hplain h htext]

/-! ## Literal subscripts -/

/-- The subscript is a text or an integer of 64 bits, or there is an attribute in its place. -/
inductive Accessor.IsLiteral : Accessor → Prop
  | key (k : String) : IsLiteral (.key k)
  | text (k : String) : IsLiteral (.index (.text k))
  | int {n : Int} (h : Value.IsInt64 n) : IsLiteral (.index (.int n))

theorem position_int {n : Int} (h : Value.IsInt64 n) : position (.int n) = .ok n := by
  have hquantity : Value.quantity? (.int n) = some (.int n) := if_pos h
  unfold position
  rw [hquantity]

namespace Accessor.IsLiteral

variable {a : Accessor}

/-- A literal gives the same step in every scope. -/
theorem exists_step (h : a.IsLiteral) : ∃ step, ∀ scope, evalAccessor scope a = .ok step := by
  cases h with
  | key k => exact ⟨.key k, fun _ => rfl⟩
  | text k => exact ⟨.key k, fun _ => rfl⟩
  | @int n h =>
    refine ⟨.position n, fun scope => ?_⟩
    change (position (.int n) >>= fun i => Except.ok (Step.position i)) = _
    rw [position_int h]
    rfl

theorem names_eq_nil (h : a.IsLiteral) : a.names = [] := by
  cases h <;> rfl

theorem eval_ne_bool {e : Expr} {t : Bool} (h : (Accessor.index e).IsLiteral) :
    eval scope e ≠ .ok (.bool t) := by
  cases h <;> nofun

end Accessor.IsLiteral

/-- All subscripts on the way to the target are literals. -/
def Target.IsLiteral (target : Target) : Prop := ∀ a ∈ target.path, a.IsLiteral

theorem isLiteral_name (name : String) : Target.IsLiteral ⟨name, []⟩ :=
  fun _ ha => absurd ha List.not_mem_nil

theorem exists_steps {path : List Accessor} (h : ∀ a ∈ path, a.IsLiteral) :
    ∃ steps, ∀ scope, evalPath scope path = .ok steps := by
  induction path with
  | nil => exact ⟨[], fun _ => rfl⟩
  | cons a path ih =>
    obtain ⟨ha, hpath⟩ := List.forall_mem_cons.1 h
    obtain ⟨step, hstep⟩ := ha.exists_step
    obtain ⟨steps, hsteps⟩ := ih hpath
    refine ⟨step :: steps, fun scope => ?_⟩
    unfold evalPath at hsteps ⊢
    rw [List.mapM_cons, hstep, hsteps]
    rfl

namespace Target.IsLiteral

theorem plain (h : target.IsLiteral) (vars : Entries Value) : target.Plain vars := by
  intro path e rest es t hpath _
  refine Accessor.IsLiteral.eval_ne_bool (h (.index e) ?_)
  rw [hpath]
  exact List.mem_append_right _ List.mem_cons_self

theorem names_tree (h : target.IsLiteral) : target.tree.names = [target.name] := by
  rw [names_of_toTarget (toTarget_tree target), List.flatMap_eq_nil_iff.2]
  exact fun a ha => (h a ha).names_eq_nil

/-- What the target reads depends on the value of its name alone. -/
theorem eval_congr {scope scope' : Scope} (h : target.IsLiteral)
    (hname : scope target.name = scope' target.name) :
    eval scope target.tree = eval scope' target.tree := by
  refine Expr.eval_congr target.tree fun n hn => ?_
  rw [h.names_tree, List.mem_singleton] at hn
  rw [hn, hname]

theorem steady (h : target.IsLiteral) (vars after : Entries Value) : target.Steady vars after := by
  intro e he
  refine Expr.eval_congr e fun n hn => ?_
  have hnone : e.names = [] := (h (.index e) he).names_eq_nil
  rw [hnone] at hn
  cases hn

end Target.IsLiteral

end Deskhand.Expr
