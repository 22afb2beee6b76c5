import Deskhand.Proofs.Stepwise
import Deskhand.Proofs.TargetNames

/-!
# Parts of steps and names that are missing

An expression, a condition and a snippet bind the names that they read before they read them; a write
does not. `StepM.Misses` says of a part of a step at which targets it may fail for an undefined name.
What is made of such parts misses what they miss, and a target that is filled in place is not missed:
it is evaluated before it is written to (`StepM.evaluate_target_misses`).
-/

namespace Deskhand

open Relation (ReflTransGen)

/-! ## Reading texts among the arguments -/

/-- The field is a text that must be there, or is empty when it is absent. -/
def IsText (fields : List Field) (name : String) : Prop :=
  fields.find? (·.name = name) = some (.text name) ∨
    fields.find? (·.name = name) = some (.textOrEmpty name)

theorem Shape.text_of_isText {shape : Shape} {entries record : Entries Value} {name : String}
    (h : shape.readEntries entries = .ok record) (hf : IsText shape.fields name) :
    record.text name = entries.text name := by
  rcases hf with hf | hf
  · exact text_of_readEntries h hf
  · exact text_of_textOrEmpty h hf

namespace Workspace

/-- Changes unbind no name. -/
theorem Change.bound {c : StepContext} {w w' : Workspace} {name : String} (h : w.Change c w')
    (hbound : (w.symbols.get? name).isSome) : (w'.symbols.get? name).isSome := by
  cases h with
  | symbols h => exact h.bound hbound
  | world _ => exact hbound
  | record => exact hbound
  | raise _ => exact (SymbolTable.Change.set Reserved.inException (.bool true)).bound hbound

theorem bound_of_changes {c : StepContext} {w w' : Workspace} {name : String}
    (h : ReflTransGen (Change c) w w') (hbound : (w.symbols.get? name).isSome) :
    (w'.symbols.get? name).isSome := by
  induction h with
  | refl => exact hbound
  | tail _ hlast ih => exact hlast.bound ih

end Workspace

/-- The name that is undefined, if the failure says so of one. -/
def Failure.missing? : Failure → Option String
  | .expression (.undefinedName name) => some name
  | _ => none

theorem Failure.missing?_eq_none (failure : Failure) :
    failure.missing? = none ↔ ∀ name, failure ≠ .expression (.undefinedName name) := by
  constructor
  · rintro h name rfl
    cases h
  · intro h
    unfold missing?
    split
    · next name => exact absurd rfl (h name)
    · rfl

namespace StepM

/-! ## Parts of steps -/

/-- The part of a step leaves every name bound that is; it fails for an undefined name only if one of
the targets needs that name, which then has no binding. -/
structure Misses {α : Type} (targets : List String) (step : StepM α) : Prop where
  keeps (c : StepContext) (w : Workspace) (name : String) (h : (w.symbols.get? name).isSome) :
    ((step.result c w).2.symbols.get? name).isSome
  needs (c : StepContext) (w : Workspace) (name : String)
    (h : (step.result c w).1 = .error (.expression (.undefinedName name))) :
    (∃ target ∈ targets, Expr.TargetNeeds (Text.trim target) name) ∧
      (step.result c w).2.symbols.get? name = none

/-- The part of a step does not fail for an undefined name. -/
abbrev Calm {α : Type} (step : StepM α) : Prop := Misses [] step

namespace Misses

variable {α β : Type} {targets : List String} {step : StepM α}

theorem mono {more : List String} (h : Misses targets step) (hsub : targets ⊆ more) :
    Misses more step where
  keeps := h.keeps
  needs c w name hr := by
    obtain ⟨⟨target, hmem, hneeds⟩, hnone⟩ := h.needs c w name hr
    exact ⟨⟨target, hsub hmem, hneeds⟩, hnone⟩

theorem of_calm (h : Calm step) : Misses targets step := h.mono (List.nil_subset _)

theorem of_stepwise (h : Stepwise step)
    (hfails : ∀ c w failure, (step.result c w).1 = .error failure → failure.missing? = none) :
    Misses targets step where
  keeps c w _ hbound := Workspace.bound_of_changes (h c w) hbound
  needs c w _ hr := by
    cases hfails c w _ hr

/-- What always comes out well blames no name. -/
theorem of_ok (h : Stepwise step) (hok : ∀ c w, ∃ a, (step.result c w).1 = .ok a) :
    Misses targets step :=
  .of_stepwise h fun c w failure hr => by
    obtain ⟨a, ha⟩ := hok c w
    rw [ha] at hr
    cases hr

theorem pure (a : α) : Misses targets (Pure.pure a : StepM α) := .of_ok (.pure a) fun _ _ => ⟨a, rfl⟩

theorem throw {failure : Failure} (h : failure.missing? = none) :
    Misses targets (MonadExcept.throw failure : StepM α) :=
  .of_stepwise (.throw failure) fun _ _ _ hr => by
    cases hr
    exact h

theorem get : Misses targets (MonadState.get : StepM Workspace) := .of_ok .get fun _ w => ⟨w, rfl⟩

theorem read : Misses targets (MonadReader.read : StepM StepContext) := .of_ok .read fun c _ => ⟨c, rfl⟩

theorem bind {x : StepM α} {f : α → StepM β} (hx : Misses targets x)
    (hf : ∀ a, Misses targets (f a)) : Misses targets (x >>= f) where
  keeps c w name hbound := by
    have hkept := hx.keeps c w name hbound
    rw [result_bind]
    rcases hr : x.result c w with ⟨_ | a, w'⟩
    · rw [hr] at hkept
      exact hkept
    · rw [hr] at hkept
      exact (hf a).keeps c w' name hkept
  needs c w name h := by
    have hmissing := hx.needs c w name
    rw [result_bind] at h ⊢
    rcases hr : x.result c w with ⟨_ | a, w'⟩
    · rw [hr] at h hmissing
      exact hmissing (by cases h; rfl)
    · rw [hr] at h
      exact (hf a).needs c w' name h

/-- What is thrown ahead is all that matters. -/
theorem throw_bind {failure : Failure} (h : failure.missing? = none) (f : α → StepM β) :
    Misses targets ((MonadExcept.throw failure : StepM α) >>= f) :=
  .of_stepwise (.throw_bind failure f) fun _ _ _ hr => by
    cases hr
    exact h

/-- A failure that is caught says of no name that it is undefined, if what was tried never does. -/
theorem tryCatch {x : StepM α} {handle : Failure → StepM α} (hx : Calm x)
    (hh : ∀ failure, failure.missing? = none → Misses targets (handle failure)) :
    Misses targets (MonadExcept.tryCatch x handle) := by
  have hcaught : ∀ c w failure w', x.result c w = (.error failure, w') → failure.missing? = none := by
    intro c w failure w' hr
    rw [failure.missing?_eq_none]
    rintro name rfl
    obtain ⟨⟨target, hmem, -⟩, -⟩ := hx.needs c w name (by rw [hr])
    cases hmem
  constructor
  · intro c w name hbound
    have hkept := hx.keeps c w name hbound
    rw [result_tryCatch]
    rcases hr : x.result c w with ⟨failure | a, w'⟩
    · rw [hr] at hkept
      exact (hh failure (hcaught c w failure w' hr)).keeps c w' name hkept
    · rw [hr] at hkept
      exact hkept
  · intro c w name h
    rw [result_tryCatch] at h ⊢
    rcases hr : x.result c w with ⟨failure | a, w'⟩
    · rw [hr] at h
      exact (hh failure (hcaught c w failure w' hr)).needs c w' name h
    · rw [hr] at h
      cases h

theorem mapM {f : α → StepM β} (hf : ∀ a, Misses targets (f a)) (xs : List α) :
    Misses targets (xs.mapM f) := by
  induction xs with
  | nil => exact pure []
  | cons x xs ih =>
    rw [List.mapM_cons]
    exact (hf x).bind fun _ => ih.bind fun _ => pure _

/-- What goes on from something that may not be there misses the same in both cases. -/
theorem option {k : Option α → StepM β} (hsome : ∀ a, Misses targets (k (some a)))
    (hnone : Misses targets (k none)) (found : Option α) : Misses targets (k found) := by
  cases found with
  | none => exact hnone
  | some a => exact hsome a

theorem withWorld {f : World → α × World} (hf : ∀ w : World, w.Passes (f w).2) :
    Misses targets (StepM.withWorld f) := 
  .of_ok (.withWorld hf) fun _ w => ⟨(f w.world).1, rfl⟩

theorem modifySymbols {f : SymbolTable → SymbolTable} (hf : ∀ t : SymbolTable, t.Change (f t)) :
    Misses targets (StepM.modifySymbols f) :=
  .of_ok (fun _ w => .single (.symbols (hf w.symbols))) fun _ _ => ⟨⟨⟩, rfl⟩

/-- Working with the variables by an operation that blames no name. -/
theorem withSymbols {f : SymbolTable → SymbolTable × Except ExprError α}
    (hf : ∀ t : SymbolTable, t.Quiet (f t).1) (hblameless : ∀ t, Expr.Blameless (f t).2) :
    Misses targets (StepM.withSymbols f) := by
  refine .of_stepwise (.withSymbols hf) fun c w failure h => ?_
  rw [result_withSymbols] at h
  cases hr : (f w.symbols).2 with
  | ok a =>
    rw [hr] at h
    cases h
  | error e =>
    rw [hr] at h
    cases h
    cases e with
    | undefinedName name => exact (hblameless w.symbols name hr).elim
    | _ => rfl

end Misses

/-! ## The parts that actions are made of -/

section Parts

variable {targets : List String}

theorem evaluate_misses (source : String) : Misses targets (evaluate source) :=
  .withSymbols (fun t => t.quiet_evaluate source) fun t => t.blameless_evaluate source

theorem holds_misses (condition : String) : Misses targets (holds condition) :=
  .withSymbols (fun t => t.quiet_condition condition) fun t =>
    t.blameless_evaluateCondition condition

theorem execute_misses (source : String) : Misses targets (execute source) :=
  .withSymbols (fun t => t.quiet_execute source) fun t => t.blameless_execute source

theorem write_misses {target : String} (h : target ∈ targets) (v : Value) :
    Misses targets (write (Text.trim target) v) where
  keeps c w _ hbound := Workspace.bound_of_changes (write_made _ v c w) hbound
  needs c w name hr := by
    unfold write at hr ⊢
    rw [result_withSymbols] at hr ⊢
    cases hresult : (w.symbols.write (Text.trim target) v).2 with
    | ok _ =>
      rw [hresult] at hr
      cases hr
    | error e =>
      rw [hresult] at hr
      cases hr
      obtain ⟨hneeds, hnone, hsame⟩ := SymbolTable.write_of_undefined hresult
      refine ⟨⟨target, h, hneeds⟩, ?_⟩
      dsimp only
      rw [hsame]
      exact hnone

theorem store_misses {target : String} (h : target ∈ targets) (v : Value) :
    Misses targets (store target v) := by
  unfold store
  split
  · exact .pure _
  · exact write_misses h v

/-- A target that was evaluated can be written to. -/
theorem evaluate_target_misses {α : Type} {target : String} {k : Value → StepM α}
    (hk : ∀ v, Misses (target :: targets) (k v)) :
    Misses targets (evaluate (Text.trim target) >>= k) where
  keeps := ((evaluate_misses _).bind hk).keeps
  needs c w name h := by
    have hbound (hneeds : Expr.TargetNeeds (Text.trim target) name) :=
      SymbolTable.bound_of_needs (t := w.symbols) hneeds
    have hcalm : Misses targets (evaluate (Text.trim target)) := evaluate_misses _
    have hmissing := hcalm.needs c w name
    have hafter : ((evaluate (Text.trim target)).result c w).2.symbols =
        (w.symbols.evaluate (Text.trim target)).1 := by
      unfold evaluate
      rw [result_withSymbols]
    rw [result_bind] at h ⊢
    rcases hr : (evaluate (Text.trim target)).result c w with ⟨_ | v, w'⟩
    · rw [hr] at h hmissing
      exact hmissing (by cases h; rfl)
    · rw [hr] at h hafter
      rw [← hafter] at hbound
      obtain ⟨⟨text, hmem, hneeds⟩, hnone⟩ := (hk v).needs c w' name h
      refine ⟨?_, hnone⟩
      rcases List.mem_cons.1 hmem with rfl | hmem
      · have hkept := (hk v).keeps c w' name (hbound hneeds)
        rw [hnone] at hkept
        cases hkept
      · exact ⟨text, hmem, hneeds⟩

theorem act_misses (action : DesktopAction) : Misses targets (act action) := by
  refine .of_stepwise (act_made action) fun c w failure h => ?_
  simp only [act, result_bind, result_get] at h
  cases hact : w.world.act action with
  | error fault =>
    rw [hact] at h
    cases h
    rfl
  | ok world =>
    rw [hact] at h
    cases h

theorem topWindow_misses : Misses targets topWindow := by
  refine .bind .get fun w => ?_
  split
  · exact .pure _
  · exact .throw rfl

theorem pause_misses (d : Duration) : Misses targets (pause d) :=
  .withWorld fun w => World.sleep_passes d w

theorem fromFiles_misses {α : Type} (f : Files → Except FileFault α) :
    Misses targets (fromFiles f) := by
  refine .bind .get fun w => ?_
  split
  · exact .pure _
  · exact .throw rfl

theorem changeFiles_misses (f : Files → Except FileFault Files) :
    Misses targets (changeFiles f) := by
  refine .of_stepwise (changeFiles_made f) fun c w failure h => ?_
  simp only [changeFiles, result_bind, result_get] at h
  cases hf : f w.world.files with
  | error fault =>
    rw [hf] at h
    cases h
    rfl
  | ok files =>
    rw [hf] at h
    cases h

theorem record_misses : Misses targets record :=
  .of_ok (fun _ _ => .single .record) fun _ _ => ⟨⟨⟩, rfl⟩

theorem arguments_misses_of {α : Type} {fields : List Field} {args : Entries Value}
    {k : Entries Value → StepM α}
    (hk : ∀ r, Shape.readEntries ⟨"", fields⟩ args = .ok r → Misses targets (k r)) :
    Misses targets (arguments fields args >>= k) := by
  unfold arguments
  split
  · next r hr => exact hk r hr
  · exact .throw_bind rfl _

/-- What is read as a text among the arguments is the text that was given. -/
theorem arguments_misses {α : Type} {fields : List Field} {args : Entries Value}
    {k : Entries Value → StepM α}
    (hk : ∀ r, (∀ name, IsText fields name → r.text name = args.text name) →
      Misses targets (k r)) : Misses targets (arguments fields args >>= k) :=
  arguments_misses_of fun r hr => hk r fun _ hname => Shape.text_of_isText hr hname

theorem valueOf_misses (v : Value) : Misses targets (valueOf v) := by
  unfold valueOf
  split
  · exact evaluate_misses _
  · exact .pure _

theorem numberOf_misses (v : Value) : Misses targets (numberOf v) := by
  unfold numberOf
  split
  · exact .pure _
  · split
    · exact .pure _
    · exact .pure _
    · refine (valueOf_misses v).bind fun v => ?_
      split
      · exact .pure _
      · exact .pure _
      · split
        · exact .pure _
        · exact .throw rfl

theorem numberOr_misses (default : Binary64) (v : Value) : Misses targets (numberOr default v) :=
  (numberOf_misses v).bind fun _ => .pure _

theorem durationOf_misses (seconds : Binary64) : Misses targets (durationOf seconds) := by
  unfold durationOf
  split
  · exact .pure _
  · exact .throw rfl

theorem secondsOf_misses (v : Value) : Misses targets (secondsOf v) :=
  (numberOr_misses .zero v).bind durationOf_misses

theorem randomBetween_misses (lo hi : Binary64) : Misses targets (randomBetween lo hi) := by
  unfold randomBetween
  split
  · exact .pure _
  · split
    · exact .throw_bind rfl _
    · exact .withWorld fun w => World.drawReal_passes lo hi w

end Parts

end StepM
end Deskhand
