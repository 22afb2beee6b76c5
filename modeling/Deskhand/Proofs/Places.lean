import Deskhand.Expr.Assign

/-!
# Places inside values

The items of lists and the entries of objects, and the paths of them that lead into a value. What is
put at a place is found there, and the other places keep what they have (`child?_setChild_self`,
`child?_setChild_of_ne`). A step of an evaluated path leads to a place of the value that it is taken
in, and writing along steps is putting back, place by place, what was written below
(`writeAt_cons`).
-/

namespace Deskhand

namespace Entries

variable {α : Type}

theorem put_of_get? {name : String} {value : α} {es : Entries α}
    (h : es.get? name = some value) : es.put name value = es := by
  induction es with
  | nil => cases h
  | cons e rest ih =>
    by_cases he : e.1 = name
    · have hv : e.2 = value := by simpa [get?, he] using h
      subst he hv
      simp [put]
    · have hrest : get? name rest = some value := by simpa [get?, he] using h
      simp [put, he, ih hrest]

end Entries

namespace Value

/-- One step down into a value: an item of a list or an entry of an object. -/
inductive Place where
  | item (n : Nat)
  | entry (name : String)
  deriving DecidableEq

/-- Neither path leads through the end of the other. -/
def Apart (ps qs : List Place) : Prop := ¬ps <+: qs ∧ ¬qs <+: ps

theorem Apart.ne_nil {ps qs : List Place} (h : Apart ps qs) : ps ≠ [] := by
  rintro rfl
  exact h.1 List.nil_prefix

theorem apart_cons_self {p : Place} {ps qs : List Place} :
    Apart (p :: ps) (p :: qs) ↔ Apart ps qs := by
  simp [Apart, List.cons_prefix_cons]

/-- What stands at a place. -/
def child? : Value → Place → Option Value
  | .list items, .item n => items[n]?
  | .object es, .entry name => Entries.get? name es
  | _, _ => none

/-- The value with something else at a place that it has, or that it can get. -/
def setChild : Value → Place → Value → Value
  | .list items, .item n, c => .list (Expr.setAt items n c)
  | .object es, .entry name, c => .object (Entries.put name c es)
  | v, _, _ => v

/-- What stands at the end of a path. -/
def at? : Value → List Place → Option Value
  | v, [] => some v
  | v, p :: ps => (v.child? p).bind (at? · ps)

/-- A place that something can be put at: an item that is there, or any entry of an object. -/
def Takes : Value → Place → Prop
  | .list items, .item n => n < items.length
  | .object _, .entry _ => True
  | _, _ => False

variable {v c : Value} {p q : Place}

theorem child?_setChild_self (h : v.Takes p) : (v.setChild p c).child? p = some c := by
  cases v with
  | list items =>
    cases p with
    | item n =>
      have hn : n < items.length := h
      simp [child?, setChild, Expr.setAt, hn]
    | entry name => exact h.elim
  | object es =>
    cases p with
    | item n => exact h.elim
    | entry name => exact Entries.get?_put_self name c es
  | _ => exact h.elim

theorem child?_setChild_of_ne (h : q ≠ p) : (v.setChild p c).child? q = v.child? q := by
  cases v with
  | list items =>
    cases p with
    | item n =>
      cases q with
      | item m =>
        have hne : n ≠ m := fun heq => h (by rw [heq])
        simp [child?, setChild, Expr.setAt, List.getElem?_set_ne hne]
      | entry name => rfl
    | entry name => rfl
  | object es =>
    cases p with
    | item n => rfl
    | entry name =>
      cases q with
      | item m => rfl
      | entry other => exact Entries.get?_put_of_ne c es fun heq => h (by rw [heq])
  | _ => cases p <;> rfl

theorem setChild_of_child? (h : v.child? p = some c) : v.setChild p c = v := by
  cases v with
  | list items =>
    cases p with
    | item n =>
      obtain ⟨hn, hc⟩ := List.getElem?_eq_some_iff.1 h
      subst hc
      simp [setChild, Expr.setAt]
    | entry name => cases h
  | object es =>
    cases p with
    | item n => cases h
    | entry name => exact congrArg Value.object (Entries.put_of_get? h)
  | _ => cases p <;> rfl

theorem object_of_setChild {es : Entries Value} (h : v.setChild p c = .object es) :
    ∃ es', v = .object es' := by
  cases v with
  | list items => cases p <;> cases h
  | object es' => exact ⟨es', rfl⟩
  | _ => cases p <;> cases h

theorem at?_null {ps : List Place} (h : ps ≠ []) : at? .null ps = none := by
  cases ps with
  | nil => exact absurd rfl h
  | cons p ps => rfl

/-- Nothing stands below what is missing, and nothing stands below null. -/
theorem at?_getD_null {x : Option Value} {ps : List Place} (h : ps ≠ []) :
    (x.getD .null).at? ps = x.bind (at? · ps) := by
  cases x with
  | none => exact at?_null h
  | some v => rfl

theorem getD_at?_cons (v : Value) (p : Place) (ps : List Place) :
    (v.at? (p :: ps)).getD .null = (((v.child? p).getD .null).at? ps).getD .null := by
  cases hps : ps with
  | nil => cases hc : v.child? p <;> simp [at?, hc]
  | cons q qs =>
    rw [at?_getD_null (List.cons_ne_nil q qs)]
    rfl

theorem at?_setChild_self (h : v.Takes p) (ps : List Place) :
    (v.setChild p c).at? (p :: ps) = c.at? ps := by
  simp [at?, child?_setChild_self h]

/-- Below a place the paths lead where they do in what was put there; all others are as before. -/
theorem at?_setChild_of_apart {ps qs : List Place} (htakes : v.Takes p)
    (hbelow : ∀ rs, Apart rs ps → c.at? rs = ((v.child? p).getD .null).at? rs)
    (h : Apart qs (p :: ps)) : (v.setChild p c).at? qs = v.at? qs := by
  cases qs with
  | nil => exact absurd List.nil_prefix h.1
  | cons q qs =>
    by_cases hq : q = p
    · subst hq
      have hqs : Apart qs ps := apart_cons_self.1 h
      rw [at?_setChild_self htakes, hbelow qs hqs, at?_getD_null hqs.ne_nil]
      rfl
    · simp only [at?, child?_setChild_of_ne hq]

end Value

namespace Expr

/-! ## Steps -/

/-- The place that a step leads to; a position in an object is a key in decimal. -/
def Step.into? : Step → Value → Option Value.Place
  | .position i, .list items => (Expr.place? i items.length).map .item
  | .position i, .object _ => some (.entry (toString i))
  | .key k, .object _ => some (.entry k)
  | _, _ => none

theorem place?_lt {i : Int} {length n : Nat} (h : place? i length = some n) : n < length := by
  simp only [place?, Option.ite_none_right_eq_some, Option.some.injEq] at h
  omega

variable {step : Step} {v c : Value} {p : Value.Place}

theorem takes_of_into? (h : step.into? v = some p) : v.Takes p := by
  cases v with
  | list items =>
    cases step with
    | position i =>
      obtain ⟨n, hn, rfl⟩ := Option.map_eq_some_iff.1 h
      exact place?_lt hn
    | key k => cases h
  | object es => cases step <;> cases h <;> trivial
  | _ => cases step <;> cases h

/-- Putting something at a place does not change where steps lead. -/
theorem into?_setChild (step : Step) (v : Value) (p : Value.Place) (c : Value) :
    step.into? (v.setChild p c) = step.into? v := by
  cases v with
  | list items =>
    cases p with
    | item n => cases step <;> simp [Step.into?, Value.setChild, setAt]
    | entry name => rfl
  | object es => cases p <;> cases step <;> rfl
  | _ => cases p <;> rfl

/-- The places that steps lead through. What is missing on the way counts as null. -/
def leads? : List Step → Value → Option (List Value.Place)
  | [], _ => some []
  | step :: rest, v =>
    (step.into? v).bind fun p => (leads? rest ((v.child? p).getD .null)).map (p :: ·)

/-- The first place on the way of the steps that is missing. -/
def missing? : List Step → Value → Option (List Value.Place)
  | [], _ => none
  | step :: rest, v =>
    (step.into? v).bind fun p =>
      match v.child? p with
      | none => some [p]
      | some c => (missing? rest c).map (p :: ·)

/-! ## Writing along steps -/

variable {change : Value → Except ExprError Value} {rest : List Step}

theorem writeAt_cons (h : step.into? v = some p) :
    writeAt change (step :: rest) v =
      (v.setChild p (writeAt change rest ((v.child? p).getD .null)).1,
        (writeAt change rest ((v.child? p).getD .null)).2) := by
  cases v with
  | list items =>
    cases step with
    | position i =>
      obtain ⟨n, hn, rfl⟩ := Option.map_eq_some_iff.1 h
      simp [writeAt, hn, Value.setChild, Value.child?]
    | key k => cases h
  | object es => cases step <;> cases h <;> rfl
  | _ => cases step <;> cases h

/-- A step that leads nowhere is an error and changes nothing. -/
theorem writeAt_blocked (h : step.into? v = none) :
    ∃ e, writeAt change (step :: rest) v = (v, some e) := by
  cases v with
  | list items =>
    cases step with
    | position i =>
      have hnone : place? i items.length = none := Option.map_eq_none_iff.1 h
      exact ⟨.index (.assignedIndex i), by simp only [writeAt, hnone]⟩
    | key k => exact ⟨_, rfl⟩
  | object es => cases step <;> cases h
  | _ => exact ⟨_, rfl⟩

theorem writeAt_null_cons : (writeAt change (step :: rest) .null).2 ≠ none := by
  have hnone : step.into? .null = none := by cases step <;> rfl
  obtain ⟨e, he⟩ := writeAt_blocked hnone
  rw [he]
  exact Option.some_ne_none e

/-- No step leads into null, so it stays null if what is to be written fails. -/
theorem writeAt_null_failed {steps : List Step} {e : ExprError}
    (h : (writeAt change steps .null).2 = some e) : (writeAt change steps .null).1 = .null := by
  cases steps with
  | nil =>
    unfold writeAt at h ⊢
    split
    · next hchange => simp [hchange] at h
    · rfl
  | cons step rest => cases step <;> rfl

/-- What is written stands at the end of the steps, and nothing apart from them changes. -/
theorem writeAt_written {steps : List Step} (h : (writeAt change steps v).2 = none) :
    ∃ ps new, leads? steps v = some ps ∧ change ((v.at? ps).getD .null) = .ok new ∧
      (writeAt change steps v).1.at? ps = some new ∧
      ∀ qs, Value.Apart qs ps → (writeAt change steps v).1.at? qs = v.at? qs := by
  induction steps generalizing v with
  | nil =>
    unfold writeAt at h ⊢
    cases hchange : change v with
    | error e => simp [hchange] at h
    | ok new =>
      refine ⟨[], new, rfl, hchange, rfl, ?_⟩
      intro qs hqs
      exact absurd List.nil_prefix hqs.2
  | cons step rest ih =>
    cases hp : step.into? v with
    | none =>
      obtain ⟨e, he⟩ := writeAt_blocked hp
      rw [he] at h
      cases h
    | some p =>
      have htakes := takes_of_into? hp
      rw [writeAt_cons hp] at h ⊢
      obtain ⟨ps, new, hleads, hchange, hnew, hsame⟩ := ih h
      refine ⟨p :: ps, new, by simp [leads?, hp, hleads], ?_, ?_, ?_⟩
      · rw [Value.getD_at?_cons]
        exact hchange
      · rw [Value.at?_setChild_self htakes]
        exact hnew
      · exact fun qs hqs => Value.at?_setChild_of_apart htakes hsame hqs

/-- A failed writing leaves the value as it was if no place was missing on the way; the first one
that was is null afterwards. -/
theorem writeAt_failed {steps : List Step} {e : ExprError}
    (h : (writeAt change steps v).2 = some e) :
    (missing? steps v = none → (writeAt change steps v).1 = v) ∧
    ∀ ps, missing? steps v = some ps →
      v.at? ps = none ∧ (writeAt change steps v).1.at? ps = some .null ∧
      ∀ qs, Value.Apart qs ps → (writeAt change steps v).1.at? qs = v.at? qs := by
  induction steps generalizing v with
  | nil =>
    refine ⟨fun _ => ?_, nofun⟩
    unfold writeAt at h ⊢
    split
    · next hchange => simp [hchange] at h
    · rfl
  | cons step rest ih =>
    cases hp : step.into? v with
    | none =>
      obtain ⟨e', he⟩ := writeAt_blocked hp
      rw [he]
      simp [missing?, hp]
    | some p =>
      have htakes := takes_of_into? hp
      rw [writeAt_cons hp] at h ⊢
      cases hc : v.child? p with
      | none =>
        rw [hc] at h
        have hnull := writeAt_null_failed h
        simp only [missing?, hp, hc, Option.bind_some, reduceCtorEq, Option.some.injEq,
          Option.getD_none, hnull, false_implies, true_and]
        rintro ps rfl
        refine ⟨by simp [Value.at?, hc], Value.at?_setChild_self htakes [], ?_⟩
        intro qs hqs
        refine Value.at?_setChild_of_apart htakes (fun rs hrs => ?_) hqs
        rw [hc]
        rfl
      | some c =>
        rw [hc, Option.getD_some] at h
        obtain ⟨hkept, hfilled⟩ := ih h
        simp only [missing?, hp, hc, Option.bind_some, Option.map_eq_none_iff,
          Option.map_eq_some_iff, Option.getD_some]
        constructor
        · intro hnone
          rw [hkept hnone]
          exact Value.setChild_of_child? hc
        · rintro _ ⟨ps, hps, rfl⟩
          obtain ⟨hbefore, hafter, hsame⟩ := hfilled ps hps
          refine ⟨by simpa [Value.at?, hc] using hbefore, ?_, ?_⟩
          · rw [Value.at?_setChild_self htakes]
            exact hafter
          · intro qs hqs
            refine Value.at?_setChild_of_apart htakes (fun rs hrs => ?_) hqs
            rw [hc]
            exact hsame rs hrs

end Expr

end Deskhand
