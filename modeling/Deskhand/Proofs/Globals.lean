import Deskhand.Proofs.Bindings
import Deskhand.Proofs.Rollback

/-!
# Reserved names along a run

The reserved names are bound from the start and no mission variables, so rollbacks leave them alone.
Nothing but the program can change that: the data steps and the calls of a document make the names
that they give mission variables (`Program.Declares`), and reserved names are not kept from it. A
reserved name that no instruction declares stays bound, gets into no snapshot, and keeps its value in
every rollback (`Mission.reserved_spared`). One that is declared does not: it is unbound by a rollback
to a point before that (`Mission.not_reserved_bound`).
-/

namespace Deskhand

open Relation (ReflTransGen)
open StepM (blindSearch)

namespace Reserved

/-- The reserved names. -/
def names : List String :=
  [fin, fout, lastScreen, cmpResult, inException, netConnected, scrollResolution, missionFailed]

end Reserved

/-! ## What declares a name -/

/-- The name that an instruction makes a mission variable: that of a data step, or the one that a call
gives its result to. -/
def Op.declared? : Op → Option String
  | .action kind args => declaredBy? args kind
  | op => op.output?.map Text.trim

theorem Op.declared?_of_output? {op : Op} {output : String} (h : op.output? = some output) :
    op.declared? = some (Text.trim output) := by
  cases op with
  | callFunction name entry param arg output => cases h; rfl
  | useSkill name entry arg output => cases h; rfl
  | overloadSkill name entry arg output => cases h; rfl
  | _ => cases h

/-- An instruction of the program makes the name a mission variable. -/
def Program.Declares (name : String) (p : Program) : Prop :=
  ∃ j op, p.op? j = some op ∧ op.declared? = some name

/-! ## Sparing a name -/

namespace Workspace

/-- The name is bound, is no mission variable, and is in no rollback point. -/
structure Spares (name : String) (w : Workspace) : Prop where
  untracked : w.symbols.Untracked name
  points : ∀ point ∈ w.recovery.pages.points, name ∉ point.snapshot.values.names

/-- The change goes on sparing a name. -/
def StillSpares (name : String) (_ : StepContext) (w w' : Workspace) : Prop :=
  w.Spares name → w'.Spares name

variable {name : String} {c : StepContext} {w w' : Workspace}

instance : Admits (StillSpares name) where
  symbols hquiet h := ⟨h.untracked.quiet hquiet, h.points⟩
  world _ h := ⟨h.untracked, h.points⟩

instance : AdmitsRaise (StillSpares name) where
  raise _ h := ⟨h.untracked.quiet (SymbolTable.quiet_set _ _ _), h.points⟩

theorem admitsDeclare_of_ne {other : String} (hne : other ≠ name) :
    AdmitsDeclare (StillSpares name) other where
  declare v h := ⟨h.untracked.declare hne v, h.points⟩

theorem Spares.of_changes (h : w.Spares name) (hw : ReflTransGen (StillSpares name c) w w') :
    w'.Spares name := by
  induction hw with
  | refl => exact h
  | tail _ hlast ih => exact hlast ih

/-- The snapshot of a new rollback point has the mission variables, and so it does not have the
name. -/
theorem Spares.recorded (h : w.Spares name) : (w.recorded c).Spares name where
  untracked := h.untracked
  points point hpoint := by
    rcases List.mem_cons.1 (List.mem_of_mem_take hpoint) with rfl | hpoint
    · rw [SymbolTable.names_snapshot]
      exact h.untracked.undeclared
    · exact h.points point hpoint

end Workspace

namespace Mission

/-- What spares a name in a mission: no instruction declares it, and no call under way will. -/
structure Spares (name : String) (m : Mission) : Prop where
  work : m.work.Spares name
  program : ¬m.program.Declares name
  outputs : ∀ output, StackEntry.name output ∈ m.calls.entries → Text.trim output ≠ name

section Spares

variable {name : String} {m : Mission}

/-- A rollback restores a snapshot without the name. -/
theorem spares_rollBack (h : m.work.Spares name) : m.rollBack.2.work.Spares name where
  untracked := by
    have hback : (m.recovery.rollBack m.symbols).2.1.Untracked name := by
      unfold Recovery.rollBack
      split
      · exact h.untracked
      · next point rest hpop =>
        exact h.untracked.restore (h.points point ((PageStack.mem_of_pop hpop).2 (.inl rfl)))
    change m.rollBack.2.symbols.Untracked name
    rcases m.rollBack_symbols with heq | heq
    · rwa [heq]
    · rw [heq]
      exact hback.quiet (SymbolTable.quiet_set _ _ _)
  points point hpoint := h.points point (mem_of_mem_rollBack hpoint)

theorem spares_unwind (h : m.work.Spares name) : m.unwind.work.Spares name :=
  ⟨h.untracked.quiet (SymbolTable.quiet_set _ _ _), h.points⟩

/-- An instruction that does not declare the name spares it. -/
theorem perform_spares (h : m.Spares name) {op : Op} (hop : op.declared? ≠ some name) :
    (m.perform op).2.work.Spares name := by
  have hdeclare : ∀ other, m.MayDeclare op other →
      Workspace.AdmitsDeclare (Workspace.StillSpares name) other := by
    intro other hmay
    apply Workspace.admitsDeclare_of_ne
    rintro rfl
    cases hmay with
    | action hkind hname =>
      subst hkind
      exact hop hname
    | @result frame hframe =>
      have hpop : m.calls.popFrame = (m.calls.popFrame.1, some frame) := Prod.ext rfl hframe
      exact h.outputs frame.output (CallStack.mem_of_popFrame hpop).2 rfl
  have hworked : m.Worked (Workspace.StillSpares name) op (m.perform op).2.work :=
    perform_worked hdeclare
  generalize (m.perform op).2.work = work at hworked
  cases hworked with
  | changed hw => exact h.work.of_changes hw
  | recorded hw => exact (h.work.of_changes hw).recorded
  | unwound => exact spares_unwind h.work
  | backed => exact spares_rollBack h.work

/-- The only name for a result that an instruction puts on the call stack is its own. -/
theorem perform_outputs {op : Op} {m : Mission} {output : String}
    (h : StackEntry.name output ∈ (m.perform op).2.calls.entries) :
    StackEntry.name output ∈ m.calls.entries ∨ op.output? = some output := by
  have hperformed := m.performed op
  generalize m.perform op = r at h hperformed
  have honto : ∀ own, op.output? = some own →
      StackEntry.name output ∈ (m.calls.onto (m.callFrame own)).entries →
      StackEntry.name output ∈ m.calls.entries ∨ op.output? = some output := by
    intro own hop hmem
    rcases List.mem_append.1 hmem with hframe | hold
    · simp only [CallStack.frameEntries, List.mem_cons, List.not_mem_nil, reduceCtorEq,
        StackEntry.name.injEq, or_false] at hframe
      exact .inr (hframe ▸ hop)
    · exact .inl hold
  cases hperformed with
  | worked hw => exact .inl h
  | called hw hop => exact honto _ hop h
  | entered hw hop => exact honto _ hop h
  | returned hw => exact .inl (CallStack.mem_of_mem_popFrame h)
  | unwound => cases h
  | backed => exact .inl h

theorem Spares.step (h : m.Spares name) : m.step.2.Spares name := by
  have hprogram : m.step.2.program = m.program := m.step_sameRun.program
  rw [step_snd] at hprogram ⊢
  generalize hr : m.tick = r at hprogram ⊢
  have ht := m.ticked
  rw [hr] at ht
  have hperform : ∀ {i : Instruction}, m.program.instructions[m.index]? = some i →
      (m.perform i.op).2.work.Spares name ∧ ∀ output,
        StackEntry.name output ∈ (m.perform i.op).2.calls.entries → Text.trim output ≠ name := by
    intro i hi
    have hop : i.op.declared? ≠ some name := fun hop =>
      h.program ⟨m.index, i.op, Option.map_eq_some_iff.2 ⟨i, hi, rfl⟩, hop⟩
    refine ⟨perform_spares h hop, fun output hmem => ?_⟩
    rcases perform_outputs hmem with hold | hown
    · exact h.outputs output hold
    · rintro rfl
      exact hop (Op.declared?_of_output? hown)
  cases ht with
  | none hi => exact ⟨h.work, h.program, h.outputs⟩
  | aborted hi hp | next hi hp | failed tag hi hp =>
    obtain ⟨hwork, houtputs⟩ := hperform hi
    rw [hp] at hwork houtputs
    exact ⟨hwork, fun hdeclares => h.program (hprogram ▸ hdeclares), houtputs⟩

theorem Spares.setWorld (h : m.Spares name) (w : World) : (m.setWorld w).Spares name :=
  ⟨⟨h.work.untracked, h.work.points⟩, h.program, h.outputs⟩

theorem Spares.arrived (h : m.Spares name) : m.arrived.Spares name := by
  obtain ⟨w, harrived⟩ := m.arrived_eq
  rw [harrived]
  exact ⟨⟨h.work.untracked.quiet (SymbolTable.quiet_set _ _ _), h.work.points⟩, h.program, h.outputs⟩

theorem Spares.reconnect (h : m.Spares name) : m.reconnect.Spares name :=
  ⟨spares_rollBack h.arrived.work, h.arrived.program, h.arrived.outputs⟩

theorem Spares.fail (h : m.Spares name) (reason : String) : (m.fail reason).Spares name where
  work := spares_unwind
    ⟨h.work.untracked.quiet (SymbolTable.quiet_set _ _ _), h.work.points⟩
  program := h.program
  outputs _ hmem := nomatch hmem

theorem Spares.recover (h : m.Spares name) : m.recover.Spares name := by
  unfold Mission.recover
  dsimp only
  split
  · exact (h.setWorld _).reconnect
  · exact (h.setWorld _).fail _

/-- Another turn spares a name like the turns before. -/
theorem preserved_spares (name : String) : Preserved (Spares name) where
  drained m d hd h := by
    obtain ⟨w, b, -, rfl⟩ := hd
    exact ⟨⟨h.work.untracked, h.work.points⟩, h.program, h.outputs⟩
  unwind m h := ⟨spares_unwind h.work, h.program, fun _ hmem => nomatch hmem⟩
  fail m reason h := h.fail reason
  recover m h := h.recover
  divert m i _ h := ⟨h.work, h.program, h.outputs⟩
  step m h := h.step

end Spares

/-! ## Along a run -/

/-- A mission starts with every reserved name bound and none of them a mission variable. -/
theorem untracked_initial {name : String} (hname : name ∈ Reserved.names) (p : Program)
    (world : World) (config : RunConfig) :
    (initial p world config).symbols.Untracked name := by
  have hbound : ∀ name ∈ Reserved.names, (SymbolTable.initial.get? name).isSome := by decide
  have hinitial : SymbolTable.initial.Untracked name := ⟨hbound name hname, List.not_mem_nil⟩
  exact hinitial.quiet (SymbolTable.quiet_set _ _ _)

theorem Spares.rollsBack {name : String} {m b : Mission} (h : m.Spares name)
    (hb : m.RollsBack b) : b.Spares name := by
  cases hb with
  | @recovery d attempts w hb hretry =>
    have hs := m.boundary_sound
    rw [hb] at hs
    have hd : d.Spares name := (preserved_spares name).drained m d hs.2 h
    exact (hd.setWorld w).arrived
  | handler hb hi hends => exact (preserved_spares name).ready hb h

/-- Going back leaves a name alone that no snapshot has, but for the flag that it takes back. -/
theorem Spares.get?_rollsBack {name : String} {m b : Mission} (h : m.Spares name)
    (hb : m.RollsBack b) : m.turn.2.symbols.get? name = b.symbols.get? name ∨
      name = Reserved.inException ∧ m.turn.2.symbols.get? name = some (.bool false) := by
  obtain ⟨other, steps, hturn⟩ := hb.turn
  have hspared : b.work.Spares name := (h.rollsBack hb).work
  have hback : (b.recovery.rollBack b.symbols).2.1.get? name = b.symbols.get? name := by
    unfold Recovery.rollBack
    split
    · rfl
    · next point rest hpop =>
      have hpoint : point ∈ b.work.recovery.pages.points := (PageStack.mem_of_pop hpop).2 (.inl rfl)
      exact hspared.untracked.get?_restore (hspared.points point hpoint)
  rw [hturn]
  change b.rollBack.2.symbols.get? name = _ ∨ _ ∧ b.rollBack.2.symbols.get? name = _
  rcases b.rollBack_symbols with heq | heq
  · rw [heq]
    exact .inl hback
  · by_cases hname : name = Reserved.inException
    · subst hname
      refine .inr ⟨rfl, ?_⟩
      rw [heq]
      exact SymbolTable.get?_set_self _ _
    · refine .inl ?_
      rw [heq]
      exact (SymbolTable.get?_set_of_ne _ _ hname).trans hback

theorem Begins.spares {p : Program} {m : Mission} (hm : m.Begins p) {name : String}
    (huntracked : m.symbols.Untracked name) (hp : ¬p.Declares name) : m.Spares name := by
  obtain ⟨world, config, t, -, rfl⟩ := hm.eq_initial
  exact ⟨⟨huntracked, fun _ hpoint => nomatch hpoint⟩, hp, fun _ hmem => nomatch hmem⟩

/-- A reserved name that no instruction declares stays bound along a run, is in no rollback point, and
has the same value after a rollback as just before it; only `in_exception` may be taken back. -/
theorem reserved_spared {p : Program} {m : Mission} (hm : m.Begins p)
    (hstart : ∀ name ∈ Reserved.names, m.symbols.Untracked name) :
    ∀ name ∈ Reserved.names, ¬p.Declares name → ∀ n,
      ((m.after n).symbols.get? name).isSome ∧
      (∀ point ∈ (m.after n).recovery.pages.points, name ∉ point.snapshot.values.names) ∧
      ∀ b, (m.after n).RollsBack b →
        (m.after (n + 1)).symbols.get? name = b.symbols.get? name ∨
          name = Reserved.inException ∧
            (m.after (n + 1)).symbols.get? name = some (.bool false) := by
  intro name hname hp n
  have hspared : (m.after n).Spares name :=
    (preserved_spares name).after (hm.spares (hstart name hname) hp) n
  refine ⟨hspared.work.untracked.bound, hspared.work.points, fun b hb => ?_⟩
  rw [after_succ]
  exact hspared.get?_rollsBack hb

theorem not_declares_typing : ¬typingProgram.Declares Reserved.fout := by
  have hnone : ∀ i ∈ typingProgram.instructions.toList, i.op.declared? ≠ some Reserved.fout := by
    decide
  rintro ⟨j, op, hop, hdeclares⟩
  obtain ⟨i, hi, rfl⟩ := Option.map_eq_some_iff.1 hop
  exact hnone i (Array.mem_toList_iff.2 (Array.mem_of_getElem? hi)) hdeclares

theorem reserved_spared_typing :
    ((typingMission [some .zero, none]).after 6).RollsBack reachedMission ∧
    (((typingMission [some .zero, none]).after 7).symbols.get? Reserved.fout =
        reachedMission.symbols.get? Reserved.fout ∨
      Reserved.fout = Reserved.inException ∧
        ((typingMission [some .zero, none]).after 7).symbols.get? Reserved.fout =
          some (.bool false)) := by
  have hstart : ∀ name ∈ Reserved.names,
      (typingMission [some .zero, none]).symbols.Untracked name :=
    fun name hname => untracked_initial hname _ _ _
  have hfout : Reserved.fout ∈ Reserved.names := by decide
  obtain ⟨-, -, hkept⟩ :=
    reserved_spared (typingMission_begins _) hstart Reserved.fout hfout not_declares_typing 6
  exact ⟨raisedMission_rollsBack, hkept _ raisedMission_rollsBack⟩

/-! ## A mission that declares a reserved name -/

/-- A document that types, makes `fin` a mission variable and then searches a screen where nothing
is. -/
def shadowingDocument : SkillDocument where
  name := "main"
  header := .empty
  steps :=
    [⟨"step 1", 1, "Text Input", [("text", .text "abc")]⟩,
      ⟨"step 2", 2, "Create Data", [("data_name", .text "fin"), ("key_value", .text "7")]⟩,
      ⟨"step 3", 3, "Search", blindSearch⟩]

/-- The program of `shadowingDocument`. -/
def shadowingProgram : Program where
  name := "main"
  skid := ""
  instructions := #[⟨⟨"main", 1, false⟩, .action "Text Input" [("text", .text "abc")]⟩,
    ⟨⟨"main", 2, false⟩,
      .action "Create Data" [("data_name", .text "fin"), ("key_value", .text "7")]⟩,
    ⟨⟨"main", 3, false⟩, .action "Search" blindSearch⟩, ⟨⟨"main", 3, true⟩, .finish⟩]
  functions := []
  skills := [("main", 0)]
  handlers := []
  documents := [⟨"main", 0, 4⟩]

theorem resolve_shadowingDocument : resolve shadowingDocument .empty = .ok shadowingProgram :=
  resolve_of_sorted rfl (by decide) (by decide) (by decide)

/-- The mission of `shadowingProgram` whose first ping is not answered. -/
def shadowingMission : Mission :=
  initial shadowingProgram
    { World.plain 0 .empty with network := ⟨[none], some (.ofMillis 20), 0⟩ } promptConfig

theorem shadowingMission_begins : shadowingMission.Begins shadowingProgram :=
  ⟨_, promptConfig, shadowingMission, shadowingMission.symbols, rfl, rfl⟩

/-- The mission behind its first step, with a rollback point. -/
def shadowingTyped : Mission := { shadowingMission with
  work := {
    symbols := shadowingMission.symbols
    recovery := shadowingMission.recovery.record 1 shadowingMission.symbols
    world := { shadowingMission.world with
      desktop := { Desktop.usual with actions := [.typeText "abc" ⟨0⟩] } } }
  index := 1
  stepsExecuted := 1 }

theorem after_shadowingTyped : shadowingMission.after 1 = shadowingTyped := by
  have hb : shadowingMission.boundary = .ready shadowingMission := rfl
  have hstep : shadowingMission.step = (.goOn, (shadowingMission.acted "Text Input"
      (textInput [("text", .text "abc")])).goTo 1) := step_acted rfl rfl
  rw [after_succ, after_zero, turn_of_ready hb, hstep, acted_of_ok (StepM.result_textInput rfl)]
  rfl

/-- The mission that has declared `fin`. -/
def shadowingDeclared : Mission := { shadowingTyped with
  work := { shadowingTyped.work with
    symbols := shadowingTyped.symbols.declare Reserved.fin (.text "7") }
  index := 2
  stepsExecuted := 2 }

theorem after_shadowingDeclared : shadowingMission.after 2 = shadowingDeclared := by
  rw [after_succ, after_shadowingTyped]
  rfl

/-- The mission that has found the site unreachable. -/
def shadowingRaised : Mission := { shadowingDeclared with
  work := {
    symbols := (shadowingDeclared.symbols.setFlag Reserved.netConnected false).setFlag
      Reserved.inException true
    recovery := { shadowingDeclared.recovery with exceptions := [unreached 2] }
    world := { shadowingDeclared.world with network := ⟨[], some (.ofMillis 20), 1⟩ } }
  index := 3
  stepsExecuted := 3 }

theorem after_shadowingRaised : shadowingMission.after 3 = shadowingRaised := by
  rw [after_succ, after_shadowingDeclared, turn_blindSearch rfl rfl rfl rfl]
  rfl

/-- Reserved names are not kept from being declared: the recovery unbinds `fin`. -/
theorem not_reserved_bound : ¬∀ (main : SkillDocument) (library : SkillLibrary) (p : Program)
    (m : Mission), resolve main library = .ok p → m.Begins p →
    (∀ name ∈ Reserved.names, m.symbols.Untracked name) →
    ∀ n, ∀ name ∈ Reserved.names, ((m.after n).symbols.get? name).isSome := by
  intro h
  have hstart : ∀ name ∈ Reserved.names, shadowingMission.symbols.Untracked name :=
    fun name hname => untracked_initial hname _ _ _
  have hbound := h _ _ _ _ resolve_shadowingDocument shadowingMission_begins hstart 4 Reserved.fin
    (by decide)
  have hunbound : (shadowingMission.after 4).symbols.get? Reserved.fin = none := by
    rw [after_succ, after_shadowingRaised]
    rfl
  rw [hunbound] at hbound
  cases hbound

end Mission

end Deskhand
