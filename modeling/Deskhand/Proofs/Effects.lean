import Deskhand.Proofs.Run

/-!
# What an instruction does to the workspace

Most instructions work on the workspace by the changes that actions are made of; a return binds names
too, and a handler tries to reach the site. The end of a handler's block leaves everything or goes
back to a rollback point. This is said once for every relation that admits the changes
(`Mission.perform_worked`), so that what every change keeps is kept by every instruction.
-/

namespace Deskhand

open Relation (ReflTransGen)

namespace Mission

/-- The instruction goes back to the newest rollback point, if there is one. -/
structure Ends (op : Op) (m : Mission) : Prop where
  op : op = .endException
  handling : m.handling = true
  unfailed : m.symbols.flag Reserved.missionFailed = false

theorem endException_of_ends {m : Mission} {op : Op} (h : m.Ends op) :
    m.perform op = (.next (m.rollBack.1.getD (m.index + 1)), m.rollBack.2) := by
  rw [h.op]
  simp [perform, endException, h.handling, h.unfailed]

/-- The names that an instruction may make mission variables: that of an action, and the one that the
newest frame has for the result of a call. -/
inductive MayDeclare (op : Op) (m : Mission) : String → Prop
  | action {kind name : String} {args : Entries Value} (hop : op = .action kind args)
    (h : declaredBy? args kind = some name) : MayDeclare op m name
  | result {frame : CallFrame} (hframe : m.calls.popFrame.2 = some frame) :
    MayDeclare op m (Text.trim frame.output)

/-- The workspace after an instruction: it was changed step by step, and maybe a rollback point was
put down then; or the mission has left everything, or gone back. -/
inductive Worked (R : StepContext → Workspace → Workspace → Prop) (op : Op) (m : Mission) :
    Workspace → Prop
  | changed {work : Workspace} (h : ReflTransGen (R ⟨m.config, m.index⟩) m.work work) :
    Worked R op m work
  | recorded {work : Workspace} (h : ReflTransGen (R ⟨m.config, m.index⟩) m.work work) :
    Worked R op m (work.recorded ⟨m.config, m.index⟩)
  | unwound : Worked R op m m.unwind.work
  | backed (h : m.Ends op) : Worked R op m m.rollBack.2.work

section Work

variable {R : StepContext → Workspace → Workspace → Prop} [Workspace.Admits R] {c : StepContext}

theorem set_made (name : String) (v : Value) (m : Mission) :
    R c m.work (m.setSymbols (m.symbols.set name v)).work :=
  Workspace.Admits.symbols (SymbolTable.quiet_set _ name v)

omit [Workspace.Admits R] in
theorem declare_made (name : String) [Workspace.AdmitsDeclare R name] (v : Value) (m : Mission) :
    R c m.work (m.setSymbols (m.symbols.declare name v)).work :=
  Workspace.AdmitsDeclare.declare v

theorem leave_made (v : Value) {m : Mission}
    (hdeclare : ∀ frame, m.calls.popFrame.2 = some frame →
      Workspace.AdmitsDeclare R (Text.trim frame.output)) :
    ReflTransGen (R c) m.work (m.leave v).2.work := by
  rw [leave_eq]
  split
  · exact .refl
  · next frame hpop =>
    have := hdeclare frame (by rw [hpop])
    let m₁ := m.setSymbols (m.symbols.set Reserved.fin frame.fin)
    let m₂ := m₁.setSymbols (m₁.symbols.set Reserved.fout frame.fout)
    have hset : ReflTransGen (R c) m.work m₂.work :=
      .tail (.single (set_made Reserved.fin frame.fin m)) (set_made Reserved.fout frame.fout m₁)
    unfold returned
    dsimp only
    split
    · exact hset
    · exact hset.tail (declare_made (Text.trim frame.output) v m₂)

theorem passStub_made (kind : StubKind) {m : Mission}
    (hdeclare : ∀ frame, m.calls.popFrame.2 = some frame →
      Workspace.AdmitsDeclare R (Text.trim frame.output)) :
    ReflTransGen (R c) m.work (m.passStub kind).2.work := by
  unfold passStub
  split
  · exact leave_made _ hdeclare
  · split
    · exact .refl
    · exact leave_made _ hdeclare
  · exact .refl

theorem giveBack_made (source : String) {m : Mission}
    (hdeclare : ∀ frame, m.calls.popFrame.2 = some frame →
      Workspace.AdmitsDeclare R (Text.trim frame.output)) :
    ReflTransGen (R c) m.work (m.giveBack source).2.work := by
  have hquiet := m.symbols.quiet_evaluate source
  rw [giveBack_eq]
  split
  · exact leave_made _ hdeclare
  · split
    · next t v ht =>
      rw [ht] at hquiet
      have hleave : ReflTransGen (R c) (m.setSymbols t).work ((m.setSymbols t).leave v).2.work :=
        leave_made v hdeclare
      exact .head (Workspace.Admits.symbols hquiet) hleave
    · next ht =>
      rw [ht] at hquiet
      exact .single (Workspace.Admits.symbols hquiet)

theorem callFunction_made (entry : Nat) (param arg output : String) (m : Mission) :
    ReflTransGen (R c) m.work (m.callFunction entry param arg output).2.work := by
  have henter : R c m.work (m.enter arg output).2.work := set_made Reserved.fin _ m
  unfold callFunction
  dsimp only
  split
  · exact .single henter
  · exact .tail (.single henter) (set_made _ _ _)

theorem handleException_made (args : HandlerArgs) (stop : Nat) (m : Mission) :
    ReflTransGen (R c) m.work (m.handleException args stop).2.work := by
  have hretry := m.world.retry_passes (m.recovery.config.policyFor (some args))
  unfold handleException
  dsimp only
  split
  · exact .refl
  · split
    · next w hr =>
      rw [hr] at hretry
      have hworld : R c m.work (m.setWorld w).work := Workspace.Admits.world hretry
      split
      · next h =>
        obtain ⟨w', hw', rfl⟩ := refreshPage_eq h
        have hpage : R c (m.setWorld w).work ((m.setWorld w).setWorld w').work :=
          Workspace.Admits.world hw'
        exact .tail (.tail (.single hworld) hpage) (set_made _ _ _)
      · exact .single hworld
    · next w hr =>
      rw [hr] at hretry
      have hworld : R c m.work (m.setWorld w).work := Workspace.Admits.world hretry
      exact .tail (.single hworld) (set_made _ _ _)

omit [Workspace.Admits R] in
theorem endException_worked (m : Mission) :
    m.Worked R .endException m.endException.2.work := by
  unfold endException
  split
  · exact .changed .refl
  · next hhandling =>
    split
    · exact .unwound
    · next hfailed => exact .backed ⟨rfl, by simpa using hhandling, by simpa using hfailed⟩

/-- What an instruction does to the workspace. -/
theorem perform_worked [Workspace.AdmitsRaise R] {op : Op} {m : Mission}
    (hdeclare : ∀ name, m.MayDeclare op name → Workspace.AdmitsDeclare R name) :
    m.Worked R op (m.perform op).2.work := by
  have hresult : ∀ frame, m.calls.popFrame.2 = some frame →
      Workspace.AdmitsDeclare R (Text.trim frame.output) :=
    fun frame hframe => hdeclare _ (.result hframe)
  cases op with
  | checkCondition condition ifElse ifEnd =>
    obtain ⟨work, hw, h⟩ := m.checkCondition_snd (R := R) condition ifElse
    exact h ▸ .changed hw
  | loop guard count counter stop =>
    obtain ⟨work, hw, h⟩ := m.enterLoop_snd (R := R) guard count counter stop
    exact h ▸ .changed hw
  | goto target increment =>
    cases increment with
    | none => exact .changed .refl
    | some counter => exact .changed (.single (set_made _ _ m))
  | stub kind => exact .changed (passStub_made kind hresult)
  | callFunction name entry param arg output =>
    exact .changed (m.callFunction_made entry param arg output)
  | giveBack source => exact .changed (giveBack_made source hresult)
  | useSkill name entry arg output => exact .changed (.single (set_made Reserved.fin _ m))
  | overloadSkill name entry arg output => exact .changed (.single (set_made Reserved.fin _ m))
  | exceptionHandler args stop => exact .changed (m.handleException_made args stop)
  | endException => exact m.endException_worked
  | finish => exact .changed .refl
  | action kind args =>
    have haction : ∀ name ∈ declaredBy? args kind, Workspace.AdmitsDeclare R name :=
      fun name hname => hdeclare name (.action rfl hname)
    obtain ⟨work, hw, h | h⟩ := m.doAction_recording (R := R) kind args haction
    · exact congrArg Mission.work h ▸ .changed hw
    · exact congrArg Mission.work h ▸ .recorded hw

end Work

end Mission

end Deskhand
