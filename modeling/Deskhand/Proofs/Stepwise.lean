import Deskhand.Proofs.Arrivals
import Deskhand.Proofs.Records
import Deskhand.Step.Action
import Mathlib.Logic.Relation

/-!
# What action steps may change

An action step works on its workspace by a few changes only: an operation on the variables, a change
of the world that leaves the external operations alone, a rollback point behind the step itself, an
exception raised by the step itself. `StepM.Stepwise` says so of a part of a step; it holds of every
action (`action_stepwise`), whatever the step type, the arguments and the outcome. Facts about whole
steps then follow by induction on the changes.

Parts of steps are made of fewer changes than that. `StepM.Made R` says that a part is made of changes
within `R`, for any relation `R` that admits what the part does. A rollback point is put down, or an
exception raised, at most once and at the end, when nothing can fail any more (`StepM.Closed`).
-/

namespace Deskhand

open Relation (ReflTransGen)

/-- An operation on the variables that steps are made of. -/
inductive SymbolTable.Change (t : SymbolTable) : SymbolTable → Prop
  | evaluate (source : String) : Change t (t.evaluate source).1
  | condition (source : String) : Change t (t.evaluateCondition source).1
  | execute (source : String) : Change t (t.execute source).1
  | write (target : String) (v : Value) : Change t (t.write target v).1
  | set (name : String) (v : Value) : Change t (t.set name v)
  | declare (name : String) (v : Value) : Change t (t.declare name v)

/-- One change of the workspace by the step that the context is about. -/
inductive Workspace.Change (c : StepContext) (w : Workspace) : Workspace → Prop
  | symbols {t : SymbolTable} (h : w.symbols.Change t) : Change c w { w with symbols := t }
  | world {world : World} (h : world.external = w.world.external) : Change c w { w with world }
  | record : Change c w { w with recovery := w.recovery.record (c.index + 1) w.symbols }
  | raise {e : ExceptionDescriptor} (h : e.raisedAt = c.index) :
    Change c w { w with
      symbols := (w.recovery.raise e w.symbols).1
      recovery := (w.recovery.raise e w.symbols).2 }

namespace SymbolTable

/-- An operation that makes no name a mission variable. -/
structure Quiet (t t' : SymbolTable) : Prop where
  change : t.Change t'
  missionVars : t'.missionVars = t.missionVars

section Quiet

variable (t : SymbolTable)

theorem quiet_evaluate (source : String) : t.Quiet (t.evaluate source).1 where
  change := .evaluate source
  missionVars := by
    unfold evaluate
    split <;> rfl

theorem quiet_condition (source : String) : t.Quiet (t.evaluateCondition source).1 where
  change := .condition source
  missionVars := by
    have hvars := (t.quiet_evaluate source).missionVars
    unfold evaluateCondition
    rcases hr : t.evaluate source with ⟨t', e | v⟩
    · rw [hr] at hvars
      exact hvars
    · rw [hr] at hvars
      exact hvars

theorem quiet_execute (source : String) : t.Quiet (t.execute source).1 where
  change := .execute source
  missionVars := by
    unfold execute
    split <;> rfl

theorem quiet_write (target : String) (v : Value) : t.Quiet (t.write target v).1 where
  change := .write target v
  missionVars := by
    unfold write
    split
    · rfl
    · split <;> rfl

theorem quiet_set (name : String) (v : Value) : t.Quiet (t.set name v) := ⟨.set name v, rfl⟩

end Quiet

end SymbolTable

namespace Workspace

/-- A rollback point behind the step that the context is about. -/
def recorded (c : StepContext) (w : Workspace) : Workspace :=
  { w with recovery := w.recovery.record (c.index + 1) w.symbols }

/-- An exception is opened. -/
def raised (e : ExceptionDescriptor) (w : Workspace) : Workspace :=
  { w with
    symbols := (w.recovery.raise e w.symbols).1
    recovery := (w.recovery.raise e w.symbols).2 }

/-! ## Relations that admit changes -/

section Admits

variable (R : StepContext → Workspace → Workspace → Prop)

/-- Variables may be bound, and anything may happen in the world. -/
class Admits : Prop where
  symbols {c : StepContext} {w : Workspace} {t : SymbolTable} :
    w.symbols.Quiet t → R c w { w with symbols := t }
  world {c : StepContext} {w : Workspace} {world : World} :
    w.world.Passes world → R c w { w with world }

/-- A name may be made a mission variable. -/
class AdmitsDeclare (name : String) : Prop where
  declare {c : StepContext} {w : Workspace} (v : Value) :
    R c w { w with symbols := w.symbols.declare name v }

/-- Exceptions may be raised by the step itself. -/
class AdmitsRaise : Prop where
  raise {c : StepContext} {w : Workspace} {e : ExceptionDescriptor} :
    e.raisedAt = c.index → R c w (w.raised e)

end Admits

instance : Admits Change := ⟨fun h => .symbols h.change, fun h => .world h.external⟩

instance (name : String) : AdmitsDeclare Change name := ⟨fun v => .symbols (.declare name v)⟩

instance : AdmitsRaise Change := ⟨.raise⟩

end Workspace

/-- What a part of a step may do to the recovery layer, at its end and if it comes out well: nothing,
put down a rollback point, which it may have to, or raise an exception. -/
inductive Closing where
  | none
  | recording (always : Bool)
  | raising

/-- The end of a part of a step with some result. -/
inductive Workspace.Closes {α : Type} (c : StepContext) (w : Workspace) :
    Closing → Except Failure α → Workspace → Prop
  | failed {k : Closing} (failure : Failure) : Closes c w k (.error failure) w
  | quiet {k : Closing} (a : α) (hk : k ≠ .recording true) : Closes c w k (.ok a) w
  | recorded {always : Bool} (a : α) : Closes c w (.recording always) (.ok a) (w.recorded c)
  | raised {e : ExceptionDescriptor} (a : α) (he : e.raisedAt = c.index) :
    Closes c w .raising (.ok a) (w.raised e)

namespace StepM

/-! ## Results of compound steps -/

section Result

variable {α β : Type} (c : StepContext) (w : Workspace)

theorem result_bind (x : StepM α) (f : α → StepM β) :
    (x >>= f).result c w = match x.result c w with
      | (.ok a, w') => (f a).result c w'
      | (.error e, w') => (.error e, w') := by
  simp only [result, bind, ReaderT.bind, ExceptT.bind, ExceptT.mk, ExceptT.run, StateT.bind,
    ExceptT.bindCont]
  rcases x c w with ⟨r | r, w'⟩ <;> rfl

theorem result_bind_of_ok {c : StepContext} {w w' : Workspace} {x : StepM α} {f : α → StepM β}
    {a : α} (h : x.result c w = (.ok a, w')) : (x >>= f).result c w = (f a).result c w' := by
  rw [result_bind, h]

theorem result_tryCatch (x : StepM α) (handle : Failure → StepM α) :
    (tryCatch x handle).result c w = match x.result c w with
      | (.ok a, w') => (.ok a, w')
      | (.error e, w') => (handle e).result c w' := by
  change (ExceptT.tryCatch (x c) fun e => handle e c).run w = _
  simp only [ExceptT.tryCatch, ExceptT.run, ExceptT.mk, result, bind, StateT.bind]
  rcases x c w with ⟨r | r, w'⟩ <;> rfl

@[simp] theorem result_get : (get : StepM Workspace).result c w = (.ok w, w) := rfl

@[simp] theorem result_set (w' : Workspace) :
    (set w' : StepM PUnit).result c w = (.ok ⟨⟩, w') := rfl

/-- Working with the variables changes nothing else, and fails as the operation does. -/
theorem result_withSymbols (f : SymbolTable → SymbolTable × Except ExprError α) :
    (withSymbols f).result c w =
      ((f w.symbols).2.mapError .expression, { w with symbols := (f w.symbols).1 }) := by
  simp only [withSymbols, result_bind, result_get, result_set]
  cases (f w.symbols).2 <;> rfl

end Result

/-! ## Stepwise parts of steps -/

/-- Whatever comes of it, the part of a step has done nothing to the workspace but one change within
`R` after another. -/
def Made {α : Type} (R : StepContext → Workspace → Workspace → Prop) (step : StepM α) : Prop :=
  ∀ c w, ReflTransGen (R c) w (step.result c w).2

/-- Whatever comes of it, the part of a step has done nothing to the workspace but one change after
another. -/
abbrev Stepwise {α : Type} (step : StepM α) : Prop := Made Workspace.Change step

variable {R : StepContext → Workspace → Workspace → Prop}

namespace Made

variable {α β : Type}

theorem pure (a : α) : Made R (Pure.pure a : StepM α) := fun _ _ => .refl

theorem throw (failure : Failure) : Made R (MonadExcept.throw failure : StepM α) :=
  fun _ _ => .refl

/-- What stands behind a failure is not reached. -/
theorem throw_bind (failure : Failure) (f : α → StepM β) :
    Made R ((MonadExcept.throw failure : StepM α) >>= f) := fun _ _ => .refl

theorem get : Made R (MonadState.get : StepM Workspace) := fun _ _ => .refl

theorem read : Made R (MonadReader.read : StepM StepContext) := fun _ _ => .refl

/-- Only what the first part can give matters for the second one. -/
theorem bind_of_result {x : StepM α} {f : α → StepM β} (hx : Made R x)
    (hf : ∀ a c w w', x.result c w = (.ok a, w') → Made R (f a)) : Made R (x >>= f) := by
  intro c w
  have hw := hx c w
  rw [result_bind]
  rcases hr : x.result c w with ⟨a | a, w'⟩
  · rw [hr] at hw
    exact hw
  · rw [hr] at hw
    exact hw.trans (hf a c w w' hr c w')

theorem bind {x : StepM α} {f : α → StepM β} (hx : Made R x) (hf : ∀ a, Made R (f a)) :
    Made R (x >>= f) := hx.bind_of_result fun a _ _ _ _ => hf a

theorem tryCatch {x : StepM α} {handle : Failure → StepM α} (hx : Made R x)
    (hh : ∀ e, Made R (handle e)) : Made R (MonadExcept.tryCatch x handle) := by
  intro c w
  have hw := hx c w
  rw [result_tryCatch]
  rcases hr : x.result c w with ⟨a | a, w'⟩
  · rw [hr] at hw
    exact hw.trans (hh a c w')
  · rw [hr] at hw
    exact hw

theorem mapM {f : α → StepM β} (hf : ∀ a, Made R (f a)) (xs : List α) :
    Made R (xs.mapM f) := by
  induction xs with
  | nil => exact pure []
  | cons x xs ih =>
    rw [List.mapM_cons]
    exact (hf x).bind fun _ => ih.bind fun _ => pure _

/-- What goes on from something that may not be there is stepwise in both cases. -/
theorem option {k : Option α → StepM β} (hsome : ∀ a, Made R (k (some a)))
    (hnone : Made R (k none)) (found : Option α) : Made R (k found) := by
  cases found with
  | none => exact hnone
  | some a => exact hsome a

/-- A part of a step that works with the variables does so by one operation. -/
theorem withSymbols [Workspace.Admits R] {f : SymbolTable → SymbolTable × Except ExprError α}
    (hf : ∀ t : SymbolTable, t.Quiet (f t).1) : Made R (StepM.withSymbols f) := by
  intro c w
  rw [result_withSymbols]
  exact .single (Workspace.Admits.symbols (hf w.symbols))

theorem modifySymbols [Workspace.Admits R] {f : SymbolTable → SymbolTable}
    (hf : ∀ t : SymbolTable, t.Quiet (f t)) : Made R (StepM.modifySymbols f) :=
  fun _ w => .single (Workspace.Admits.symbols (hf w.symbols))

theorem declare (name : String) [Workspace.AdmitsDeclare R name] (v : Value) :
    Made R (StepM.modifySymbols (·.declare name v)) :=
  fun _ _ => .single (Workspace.AdmitsDeclare.declare v)

theorem withWorld [Workspace.Admits R] {f : World → α × World}
    (hf : ∀ w : World, w.Passes (f w).2) : Made R (StepM.withWorld f) :=
  fun _ w => .single (Workspace.Admits.world (hf w.world))

end Made

/-- The part of a step has done nothing but one change within `R` after another, and then ends so. -/
def Closed {α : Type} (R : StepContext → Workspace → Workspace → Prop) (k : Closing)
    (step : StepM α) : Prop :=
  ∀ c w, ∃ w', ReflTransGen (R c) w w' ∧
    w'.Closes c k (step.result c w).1 (step.result c w).2

/-- Changes within `R` may stand ahead. -/
theorem Made.before {α β : Type} {k : Closing} {x : StepM α} {f : α → StepM β} (hx : Made R x)
    (hf : ∀ a, Closed R k (f a)) : Closed R k (x >>= f) := by
  intro c w
  have hw := hx c w
  rw [result_bind]
  rcases hr : x.result c w with ⟨e | a, w'⟩
  · rw [hr] at hw
    exact ⟨w', hw, .failed e⟩
  · rw [hr] at hw
    obtain ⟨w₁, hw₁, hend⟩ := hf a c w'
    exact ⟨w₁, hw.trans hw₁, hend⟩

namespace Closed

variable {α : Type} {k : Closing} {step : StepM α}

theorem record {always : Bool} : Closed R (.recording always) StepM.record :=
  fun _ w => ⟨w, .refl, .recorded _⟩

theorem of_made (h : Made R step) (hk : k ≠ .recording true) : Closed R k step := by
  intro c w
  refine ⟨_, h c w, ?_⟩
  cases (step.result c w).1 with
  | error failure => exact .failed failure
  | ok a => exact .quiet a hk

/-- What fails has no end to speak of. -/
theorem throw_bind {β : Type} (failure : Failure) (f : β → StepM α) :
    Closed R k ((MonadExcept.throw failure : StepM β) >>= f) :=
  fun _ w => ⟨w, .refl, .failed failure⟩

/-- If exceptions are admitted only a rollback point may be left to put down. -/
theorem recording [Workspace.AdmitsRaise R] (h : Closed R k step) (c : StepContext)
    (w : Workspace) : ∃ w', ReflTransGen (R c) w w' ∧
      ((step.result c w).2 = w' ∨ (step.result c w).2 = w'.recorded c) := by
  obtain ⟨w', hw, hend⟩ := h c w
  generalize (step.result c w).1 = r at hend
  generalize (step.result c w).2 = w₁ at hend
  cases hend with
  | failed _ => exact ⟨w', hw, .inl rfl⟩
  | quiet _ _ => exact ⟨w', hw, .inl rfl⟩
  | recorded _ => exact ⟨w', hw, .inr rfl⟩
  | raised _ he => exact ⟨_, hw.tail (Workspace.AdmitsRaise.raise he), .inl rfl⟩

theorem stepwise (h : Closed Workspace.Change k step) : Stepwise step := by
  intro c w
  obtain ⟨w', hw, hend | hend⟩ := h.recording c w
  · rw [hend]
    exact hw
  · rw [hend]
    exact hw.tail .record

end Closed

/-! ## The parts that actions are made of -/

section Parts

variable [Workspace.Admits R]

theorem evaluate_made (source : String) : Made R (evaluate source) :=
  .withSymbols fun t => t.quiet_evaluate source

theorem holds_made (condition : String) : Made R (holds condition) :=
  .withSymbols fun t => t.quiet_condition condition

theorem execute_made (source : String) : Made R (execute source) :=
  .withSymbols fun t => t.quiet_execute source

theorem write_made (target : String) (v : Value) : Made R (write target v) :=
  .withSymbols fun t => t.quiet_write target v

theorem store_made (target : String) (v : Value) : Made R (store target v) := by
  unfold store
  split
  · exact .pure _
  · exact write_made _ v

theorem act_made (action : DesktopAction) : Made R (act action) := by
  intro c w
  simp only [act, result_bind, result_get]
  cases h : w.world.act action with
  | error fault => exact .refl
  | ok world => exact .single (Workspace.Admits.world (World.act_passes h))

omit [Workspace.Admits R] in
theorem topWindow_made : Made R topWindow := by
  refine .bind .get fun w => ?_
  split
  · exact .pure _
  · exact .throw _

theorem pause_made (d : Duration) : Made R (pause d) :=
  .withWorld fun w => World.sleep_passes d w

omit [Workspace.Admits R] in
theorem fromFiles_made {α : Type} (f : Files → Except FileFault α) :
    Made R (fromFiles f) := by
  refine .bind .get fun w => ?_
  split
  · exact .pure _
  · exact .throw _

theorem changeFiles_made (f : Files → Except FileFault Files) : Made R (changeFiles f) := by
  intro c w
  simp only [changeFiles, result_bind, result_get]
  cases f w.world.files with
  | error fault => exact .refl
  | ok files => exact .single (Workspace.Admits.world (.of_remote rfl rfl))

omit [Workspace.Admits R] in
theorem arguments_made (fields : List Field) (args : Entries Value) :
    Made R (arguments fields args) := by
  unfold arguments
  split
  · exact .pure _
  · exact .throw _

/-- A text that an action must be given is the text among its arguments. -/
theorem text_of_arguments {fields : List Field} {args r : Entries Value} {name : String}
    {c : StepContext} {w w' : Workspace} (h : (arguments fields args).result c w = (.ok r, w'))
    (hfield : fields.find? (·.name = name) = some (.text name)) : r.text name = args.text name := by
  unfold arguments at h
  split at h
  · next record hread =>
    cases h
    exact Shape.text_of_readEntries hread hfield
  · cases h

omit [Workspace.Admits R] in
theorem valueOf_made_of (h : ∀ source, Made R (evaluate source)) (v : Value) :
    Made R (valueOf v) := by
  unfold valueOf
  split
  · exact h _
  · exact .pure _

omit [Workspace.Admits R] in
/-- To read a number is to evaluate an expression at most. -/
theorem numberOf_made_of (h : ∀ source, Made R (evaluate source)) (v : Value) :
    Made R (numberOf v) := by
  unfold numberOf
  split
  · exact .pure _
  · split
    · exact .pure _
    · exact .pure _
    · refine (valueOf_made_of h v).bind fun v => ?_
      split
      · exact .pure _
      · exact .pure _
      · split
        · exact .pure _
        · exact .throw _

theorem valueOf_made (v : Value) : Made R (valueOf v) := valueOf_made_of evaluate_made v

theorem numberOf_made (v : Value) : Made R (numberOf v) := numberOf_made_of evaluate_made v

theorem numberOr_made (default : Binary64) (v : Value) : Made R (numberOr default v) :=
  (numberOf_made v).bind fun _ => .pure _

omit [Workspace.Admits R] in
theorem durationOf_made (seconds : Binary64) : Made R (durationOf seconds) := by
  unfold durationOf
  split
  · exact .pure _
  · exact .throw _

theorem secondsOf_made (v : Value) : Made R (secondsOf v) :=
  (numberOr_made .zero v).bind durationOf_made

theorem randomBetween_made (lo hi : Binary64) : Made R (randomBetween lo hi) := by
  unfold randomBetween
  split
  · exact .pure _
  · split
    · exact .throw _
    · exact .withWorld fun w => World.drawReal_passes lo hi w

end Parts

end StepM

end Deskhand
