import Deskhand.Proofs.FreeNames
import Deskhand.Proofs.Snapshots

/-!
# Names that stay bound

No operation on the variables unbinds a name, except that a restore forgets the mission variables
that its snapshot does not have (`SymbolTable.get?_restore_eq_none`). So a name is safe from a restore
as long as it is bound and no mission variable (`SymbolTable.Untracked`), which it stays until an
operation declares it. Whatever was done since a snapshot was taken, restoring it leaves bound what
was bound then and was not declared since (`SymbolTable.restore_keeps`); a name that was only set
before, and is declared since, is forgotten (`SymbolTable.not_restore_keeps_set`).
-/

namespace Deskhand

/-- Statements leave every name bound that was. -/
theorem Expr.runFrom_bound {statements : List Statement} {last : Value} {vars : Entries Value}
    {name : String} (h : (runFrom last statements vars).1.get? name = none) :
    vars.get? name = none := by
  induction statements generalizing last vars with
  | nil => exact h
  | cons s rest ih =>
    cases s with
    | expr e =>
      unfold runFrom at h
      split at h
      · exact ih h
      · exact h
    | assign target op e =>
      unfold runFrom at h
      split at h
      · exact h
      · next v _ =>
        have hassign : (assign target op v vars).1.get? name = none → vars.get? name = none :=
          assign_bound
        split at h
        · next vars' heq =>
          rw [heq] at hassign
          exact hassign (ih h)
        · next vars' e heq =>
          rw [heq] at hassign
          exact hassign h

namespace SymbolTable

/-! ## Operations leave names bound -/

section Bound

variable {t t' : SymbolTable} {name : String}

theorem unbound_of_declareMissing {names : List String}
    (h : (t.declareMissing names).get? name = none) : t.get? name = none := by
  rw [get?_declareMissing] at h
  split at h
  · cases h
  · exact h

theorem unbound_of_evaluate {source : String} (h : (t.evaluate source).1.get? name = none) :
    t.get? name = none := by
  unfold evaluate at h
  split at h
  · exact h
  · exact unbound_of_declareMissing h

theorem unbound_of_set {other : String} {v : Value} (h : (t.set other v).get? name = none) :
    t.get? name = none := by
  by_cases hname : name = other
  · subst hname
    rw [get?_set_self] at h
    cases h
  · rwa [get?_set_of_ne v t hname] at h

/-- An operation on the variables unbinds no name. -/
theorem Change.unbound (h : t.Change t') (hnone : t'.get? name = none) : t.get? name = none := by
  cases h with
  | evaluate source => exact unbound_of_evaluate hnone
  | condition source =>
    have hevaluate : (t.evaluate source).1.get? name = none → t.get? name = none :=
      unbound_of_evaluate
    unfold evaluateCondition at hnone
    split at hnone
    · next heq =>
      rw [heq] at hevaluate
      exact hevaluate hnone
    · next heq =>
      rw [heq] at hevaluate
      exact hevaluate (unbound_of_set hnone)
  | execute source =>
    unfold SymbolTable.execute at hnone
    split at hnone
    · exact hnone
    · exact unbound_of_declareMissing (Expr.runFrom_bound hnone)
  | write target v =>
    unfold SymbolTable.write at hnone
    split at hnone
    · exact hnone
    · next target _ =>
      have hassign : (Expr.assign target .set v t.vars).1.get? name = none → t.get? name = none :=
        Expr.assign_bound
      split at hnone
      · next heq =>
        rw [heq] at hassign
        exact hassign hnone
      · next heq =>
        rw [heq] at hassign
        exact hassign hnone
  | set other v => exact unbound_of_set hnone
  | declare other v => exact unbound_of_set hnone

theorem Change.bound (h : t.Change t') (hbound : (t.get? name).isSome) :
    (t'.get? name).isSome := by
  rw [Option.isSome_iff_ne_none] at hbound ⊢
  exact fun hnone => hbound (h.unbound hnone)

end Bound

/-! ## What a restore forgets -/

section Restore

variable {s : Snapshot} {t : SymbolTable} {name : String}

theorem mem_missionVars_dropLater :
    name ∈ (t.dropLater s).missionVars ↔ name ∈ t.missionVars ∧ name ∈ s.values.names := by
  simp only [dropLater, List.mem_filter, decide_eq_true_eq, ← Entries.has_iff_mem_names]
  cases s.values.has name <;> simp

theorem get?_dropLater_of_later (h : name ∈ t.missionVars) (hlater : name ∉ s.values.names) :
    (t.dropLater s).get? name = none := by
  have hdropped : name ∈ t.missionVars.filter fun name => !s.values.has name := by
    have hhas : s.values.has name = false := by
      rwa [Bool.eq_false_iff, ne_eq, Entries.has_iff_mem_names]
    exact List.mem_filter.2 ⟨h, by rw [hhas]; rfl⟩
  have hfilter := Entries.get?_filter
    (fun name => !decide (name ∈ t.missionVars.filter fun name => !s.values.has name)) name t.vars
  simp only [hdropped, decide_true, Bool.not_true, Bool.false_eq_true, if_false] at hfilter
  simpa [dropLater, get?] using hfilter

theorem mem_missionVars_foldl_declare (es : Entries Value) :
    name ∈ (es.foldl (fun t e => t.declare e.1 e.2) t).missionVars ↔
      name ∈ es.names ∨ name ∈ t.missionVars := by
  induction es generalizing t with
  | nil => simp [Entries.names]
  | cons e rest ih =>
    rw [List.foldl_cons, ih, mem_missionVars_declare]
    simp only [Entries.names, List.map_cons, List.mem_cons]
    rw [or_left_comm, or_assoc]

theorem bound_foldl_declare (es : Entries Value) (h : name ∈ es.names ∨ (t.get? name).isSome) :
    ((es.foldl (fun t e => t.declare e.1 e.2) t).get? name).isSome := by
  induction es generalizing t with
  | nil => exact h.resolve_left List.not_mem_nil
  | cons e rest ih =>
    have hchange : t.Change (t.declare e.1 e.2) := .declare e.1 e.2
    rcases h with h | h
    · rcases List.mem_cons.1 h with rfl | h
      · exact ih (.inr (by rw [get?_declare_self]; rfl))
      · exact ih (.inl h)
    · exact ih (.inr (hchange.bound h))

/-- After a restore the mission variables are those of the snapshot, whatever they were before. -/
theorem mem_missionVars_restore : name ∈ (t.restore s).missionVars ↔ name ∈ s.values.names := by
  unfold restore
  rw [mem_missionVars_foldl_declare, mem_missionVars_dropLater]
  exact ⟨fun h => h.elim id And.right, .inl⟩

/-- A restore forgets the mission variables that the snapshot does not have, and no other name. -/
theorem get?_restore_eq_none : (t.restore s).get? name = none ↔
    name ∉ s.values.names ∧ (name ∈ t.missionVars ∨ t.get? name = none) := by
  by_cases hold : name ∈ s.values.names
  · have hbound : ((t.restore s).get? name).isSome := bound_foldl_declare s.values (.inl hold)
    constructor
    · intro hnone
      rw [hnone] at hbound
      cases hbound
    · exact fun h => absurd hold h.1
  · have hrestore : (t.restore s).get? name = (t.dropLater s).get? name :=
      get?_foldl_declare_of_notMem s.values hold
    rw [hrestore]
    by_cases hvar : name ∈ t.missionVars
    · simp [get?_dropLater_of_later hvar hold, hold, hvar]
    · simp [get?_dropLater (.inr hvar), hold, hvar]

end Restore

/-! ## Names that a snapshot does not track -/

/-- The name is bound, and it is no mission variable. -/
structure Untracked (name : String) (t : SymbolTable) : Prop where
  bound : (t.get? name).isSome
  undeclared : name ∉ t.missionVars

namespace Untracked

variable {name : String} {t t' : SymbolTable}

theorem quiet (h : t.Untracked name) (hquiet : t.Quiet t') : t'.Untracked name where
  bound := hquiet.change.bound h.bound
  undeclared := by
    rw [hquiet.missionVars]
    exact h.undeclared

theorem declare (h : t.Untracked name) {other : String} (hne : other ≠ name) (v : Value) :
    (t.declare other v).Untracked name where
  bound := (Change.declare other v).bound h.bound
  undeclared := by
    rw [mem_missionVars_declare]
    exact fun hmem => hmem.elim (fun heq => hne heq.symm) h.undeclared

theorem restore (h : t.Untracked name) {s : Snapshot} (hs : name ∉ s.values.names) :
    (t.restore s).Untracked name where
  bound := by
    rw [Option.isSome_iff_ne_none, ne_eq, get?_restore_eq_none]
    rintro ⟨-, hvar | hnone⟩
    · exact h.undeclared hvar
    · exact Option.isSome_iff_ne_none.1 h.bound hnone
  undeclared := by
    rw [mem_missionVars_restore]
    exact hs

theorem get?_restore (h : t.Untracked name) {s : Snapshot} (hs : name ∉ s.values.names) :
    (t.restore s).get? name = t.get? name :=
  (get?_foldl_declare_of_notMem s.values hs).trans (get?_dropLater (.inr h.undeclared))

end Untracked

/-! ## Any sequence of operations -/

/-- An operation on the variables, restoring a snapshot included. -/
inductive Operation where
  | set (name : String) (v : Value)
  | declare (name : String) (v : Value)
  | evaluate (source : String)
  | evaluateCondition (source : String)
  | execute (source : String)
  | write (target : String) (v : Value)
  | restore (s : Snapshot)

namespace Operation

/-- The table after an operation. -/
def apply (t : SymbolTable) : Operation → SymbolTable
  | set name v => t.set name v
  | declare name v => t.declare name v
  | evaluate source => (t.evaluate source).1
  | evaluateCondition source => (t.evaluateCondition source).1
  | execute source => (t.execute source).1
  | write target v => (t.write target v).1
  | restore s => t.restore s

/-- The table after operations, one after another. -/
def applyAll (ops : List Operation) (t : SymbolTable) : SymbolTable := ops.foldl apply t

/-- The operation makes a name a mission variable. -/
def Declares (name : String) : Operation → Prop
  | declare other _ => other = name
  | restore s => name ∈ s.values.names
  | _ => False

variable {name : String}

theorem untracked_apply {t : SymbolTable} (h : t.Untracked name) {op : Operation}
    (hop : ¬op.Declares name) : (op.apply t).Untracked name := by
  cases op with
  | set other v => exact h.quiet (t.quiet_set other v)
  | declare other v => exact h.declare hop v
  | evaluate source => exact h.quiet (t.quiet_evaluate source)
  | evaluateCondition source => exact h.quiet (t.quiet_condition source)
  | execute source => exact h.quiet (t.quiet_execute source)
  | write target v => exact h.quiet (t.quiet_write target v)
  | restore s => exact h.restore hop

theorem untracked_applyAll (ops : List Operation) {t : SymbolTable} (h : t.Untracked name)
    (hops : ∀ op ∈ ops, ¬op.Declares name) : (applyAll ops t).Untracked name := by
  induction ops generalizing t with
  | nil => exact h
  | cons op rest ih =>
    obtain ⟨hop, hrest⟩ := List.forall_mem_cons.1 hops
    exact ih (untracked_apply h hop) hrest

/-- A name becomes a mission variable only by an operation that declares it. -/
theorem declares_of_apply {t : SymbolTable} {op : Operation} (h : name ∈ (op.apply t).missionVars)
    (hop : ¬op.Declares name) : name ∈ t.missionVars := by
  have hquiet : ∀ {t' : SymbolTable}, t.Quiet t' → name ∈ t'.missionVars → name ∈ t.missionVars :=
    fun hq hmem => hq.missionVars ▸ hmem
  cases op with
  | set other v => exact hquiet (t.quiet_set other v) h
  | declare other v =>
    exact ((mem_missionVars_declare v t).1 h).resolve_left fun heq => hop heq.symm
  | evaluate source => exact hquiet (t.quiet_evaluate source) h
  | evaluateCondition source => exact hquiet (t.quiet_condition source) h
  | execute source => exact hquiet (t.quiet_execute source) h
  | write target v => exact hquiet (t.quiet_write target v) h
  | restore s => exact absurd (mem_missionVars_restore.1 h) hop

theorem declares_of_applyAll {ops : List Operation} {t : SymbolTable}
    (h : name ∈ (applyAll ops t).missionVars) (hnot : name ∉ t.missionVars) :
    ∃ op ∈ ops, op.Declares name := by
  induction ops generalizing t with
  | nil => exact absurd h hnot
  | cons op rest ih =>
    by_cases hop : op.Declares name
    · exact ⟨op, List.mem_cons_self, hop⟩
    · obtain ⟨op', hmem, hdeclares⟩ := ih h fun hmem => hnot (declares_of_apply hmem hop)
      exact ⟨op', List.mem_cons_of_mem op hmem, hdeclares⟩

end Operation

open Operation (applyAll)

/-- Whatever is done after a snapshot was taken, restoring it leaves bound every name that was bound
then, unless the name was no mission variable then and is declared since. The only names that the
restore forgets are names that were declared since. -/
theorem restore_keeps (t : SymbolTable) (ops : List Operation) (name : String) :
    ((t.get? name).isSome → (name ∈ t.missionVars ∨ ∀ op ∈ ops, ¬op.Declares name) →
      (((applyAll ops t).restore t.snapshot).get? name).isSome) ∧
    (((applyAll ops t).get? name).isSome →
      ((applyAll ops t).restore t.snapshot).get? name = none →
        name ∉ t.missionVars ∧ ∃ op ∈ ops, op.Declares name) := by
  constructor
  · rintro hbound (hvar | hops)
    · exact bound_foldl_declare _ (.inl (by rwa [names_snapshot]))
    · by_cases hvar : name ∈ t.missionVars
      · exact bound_foldl_declare _ (.inl (by rwa [names_snapshot]))
      · have huntracked := Operation.untracked_applyAll ops ⟨hbound, hvar⟩ hops
        exact (huntracked.restore (by rwa [names_snapshot])).bound
  · intro hbound hnone
    obtain ⟨hold, hvar | hunbound⟩ := get?_restore_eq_none.1 hnone
    · rw [names_snapshot] at hold
      exact ⟨hold, Operation.declares_of_applyAll hvar hold⟩
    · rw [hunbound] at hbound
      cases hbound

/-- A table in which a name was set but not declared. -/
def scratched : SymbolTable := initial.set "x" (.int 1)

theorem restore_keeps_scratched :
    (((applyAll [.declare "y" .null] scratched).restore scratched.snapshot).get? "x").isSome ∧
    "y" ∉ scratched.missionVars ∧ ∃ op ∈ [Operation.declare "y" .null], op.Declares "y" := by
  have hops : ∀ op ∈ [Operation.declare "y" .null], ¬op.Declares "x" := by
    intro op hop
    rw [List.mem_singleton.1 hop]
    change ¬"y" = "x"
    decide
  have hnone : ((applyAll [.declare "y" .null] scratched).restore scratched.snapshot).get? "y" =
      none := rfl
  exact ⟨(restore_keeps scratched [.declare "y" .null] "x").1 rfl (.inr hops),
    (restore_keeps scratched [.declare "y" .null] "y").2 rfl hnone⟩

theorem not_restore_keeps_set : ¬∀ (t : SymbolTable) (ops : List Operation) (name : String),
    (t.get? name).isSome → (((applyAll ops t).restore t.snapshot).get? name).isSome := by
  intro h
  have hbound := h scratched [.declare "x" (.int 1)] "x" rfl
  have hnone : ((applyAll [.declare "x" (.int 1)] scratched).restore scratched.snapshot).get? "x" =
      none := rfl
  rw [hnone] at hbound
  cases hbound

end SymbolTable

end Deskhand
