import Deskhand.Proofs.Calls
import Deskhand.Proofs.Targets

/-!
# No control transfer dangles

A mission that runs a linked program always stands at an instruction or at the end, and so do the
places it may go back to: the return addresses on the call stack, the rollback points and the steps
that raised the open exceptions (`Mission.Placed`). Most of these places are the index behind a step;
it is an instruction, since the last one of a linked program does not go on.
-/

namespace Deskhand

open Relation (ReflTransGen)

/-! ## Places to go back to -/

/-- Every return address lies below a bound. -/
def CallStack.Within (size : Nat) (s : CallStack) : Prop :=
  ∀ i, StackEntry.address i ∈ s.entries → i < size

theorem PageStack.points_of_pop {s rest : PageStack} {point : RollbackPoint}
    (h : s.pop = some (point, rest)) : s.points = point :: rest.points := by
  unfold pop at h
  split at h
  · cases h
  · next hpoints =>
    cases h
    exact hpoints

theorem PageStack.mem_of_pop {s rest : PageStack} {point other : RollbackPoint}
    (h : s.pop = some (point, rest)) : other ∈ s.points ↔ other = point ∨ other ∈ rest.points := by
  rw [points_of_pop h, List.mem_cons]

/-- Every rollback point and every open exception lies below a bound. -/
structure Recovery.Within (size : Nat) (r : Recovery) : Prop where
  pages : ∀ point ∈ r.pages.points, point.address < size
  exceptions : ∀ e ∈ r.exceptions, e.raisedAt < size

namespace CallStack

variable {size : Nat} {s : CallStack}

theorem within_onto (h : s.Within size) {f : CallFrame} (hf : f.returnTo < size) :
    (s.onto f).Within size := by
  intro i hi
  change StackEntry.address i ∈ StackEntry.name f.output :: .value f.fin :: .value f.fout ::
    .address f.returnTo :: s.entries at hi
  simp only [List.mem_cons, reduceCtorEq, StackEntry.address.injEq, false_or] at hi
  rcases hi with rfl | hi
  · exact hf
  · exact h i hi

/-- Taking a frame off leaves entries that were there. -/
theorem mem_of_mem_popFrame {e : StackEntry} (h : e ∈ s.popFrame.1.entries) : e ∈ s.entries := by
  obtain ⟨entries⟩ := s
  unfold popFrame at h
  split at h
  · next hs =>
    cases hs
    exact List.mem_cons_of_mem _ (List.mem_cons_of_mem _ (List.mem_cons_of_mem _
      (List.mem_cons_of_mem _ h)))
  · next hs =>
    cases hs
    exact List.mem_cons_of_mem _ (List.mem_cons_of_mem _ (List.mem_cons_of_mem _
      (List.mem_cons_of_mem _ h)))
  · next hs =>
    cases hs
    exact List.mem_cons_of_mem _ (List.mem_cons_of_mem _ (List.mem_cons_of_mem _ h))
  · next hs =>
    cases hs
    exact List.mem_cons_of_mem _ (List.mem_cons_of_mem _ h)
  · next hs =>
    cases hs
    exact List.mem_cons_of_mem _ h
  · exact h

/-- A frame that is taken off has its return address and its name for the result from the stack. -/
theorem mem_of_popFrame {f : CallFrame} {rest : CallStack} (h : s.popFrame = (rest, some f)) :
    StackEntry.address f.returnTo ∈ s.entries ∧ StackEntry.name f.output ∈ s.entries := by
  rw [eq_onto_of_popFrame h]
  simp [onto, frameEntries]

end CallStack

namespace Recovery.Within

variable {size : Nat} {r : Recovery}

theorem record (h : r.Within size) {address : Nat} (ha : address < size) (t : SymbolTable) :
    (r.record address t).Within size where
  pages point hp := by
    rcases List.mem_cons.1 (List.mem_of_mem_take hp) with rfl | hp
    · exact ha
    · exact h.pages point hp
  exceptions := h.exceptions

theorem raise (h : r.Within size) {e : ExceptionDescriptor} (he : e.raisedAt < size)
    (t : SymbolTable) : (r.raise e t).2.Within size where
  pages := h.pages
  exceptions e' he' := by
    rcases List.mem_cons.1 he' with rfl | he'
    · exact he
    · exact h.exceptions e' he'

theorem clear (h : r.Within size) (t : SymbolTable) : (r.clear t).2.Within size where
  pages := h.pages
  exceptions := nofun

/-- The newest rollback point and what is left of them. -/
theorem rollBack (h : r.Within size) (t : SymbolTable) :
    (r.rollBack t).2.2.Within size ∧ ∀ i, (r.rollBack t).1 = some i → i < size := by
  unfold Recovery.rollBack
  split
  · exact ⟨h, nofun⟩
  · next point pages hp =>
    have hpages := h.pages
    rw [PageStack.points_of_pop hp, List.forall_mem_cons] at hpages
    refine ⟨⟨hpages.2, h.exceptions⟩, fun i hi => ?_⟩
    cases hi
    exact hpages.1

theorem resolve (h : r.Within size) (t : SymbolTable) :
    (r.resolve t).2.2.Within size ∧ ∀ e, (r.resolve t).1 = some e → e.raisedAt < size := by
  refine ⟨⟨h.pages, fun e he => h.exceptions e (List.mem_of_mem_tail he)⟩, fun e he => ?_⟩
  exact h.exceptions e (List.mem_of_mem_head? he)

/-- A step notes its own index and the next one. -/
theorem change {c : StepContext} {w w' : Workspace} (h : w.recovery.Within size)
    (hindex : c.index + 1 < size) (hw : ReflTransGen (Workspace.Change c) w w') :
    w'.recovery.Within size := by
  induction hw with
  | refl => exact h
  | @tail w₁ _ _ hchange ih =>
    cases hchange with
    | symbols _ => exact ih
    | world _ => exact ih
    | record => exact ih.record hindex _
    | raise he => exact ih.raise (he ▸ Nat.lt_of_succ_lt hindex) w₁.symbols

end Recovery.Within

namespace Mission

/-- The places that a mission may go back to lie below a bound. -/
structure Within (size : Nat) (m : Mission) : Prop where
  calls : m.calls.Within size
  recovery : m.recovery.Within size

/-- An index is that of an instruction, or the end of the program. -/
def IsPlace (size i : Nat) : Prop := i < size ∨ i = Program.sentinel

/-- A mission of a program stands at an instruction or at the end, and can go back to instructions
only. -/
structure Placed (p : Program) (m : Mission) : Prop where
  program : m.program = p
  index : IsPlace p.size m.index
  within : m.Within p.size

/-! ## Where an instruction leads -/

/-- The operation ends the program and leaves everything as it is. -/
inductive Quits (m : Mission) : Op → Prop
  | finish : Quits m .finish
  | endSkill (name : String) (h : m.skills.isEmpty = true) : Quits m (.stub (.endSkill name))
  /-- The block of the handler has no end of its own. -/
  | handler (args : HandlerArgs) (h : m.handling = false) :
    Quits m (.exceptionHandler args Program.sentinel)

/-- The operation ends the block of a handler when the mission has failed. -/
structure Fails (m : Mission) (op : Op) : Prop where
  op : op = .endException
  handling : m.handling = true
  failed : m.symbols.flag Reserved.missionFailed = true

/-- The operation ends the program, and the mission is then `after`. -/
def Exits (m : Mission) (op : Op) (after : Mission) : Prop :=
  m.Quits op ∧ after = m ∨ m.Fails op ∧ after = m.unwind

section Perform

variable {size : Nat} {exits : Mission → Prop} {m : Mission}

/-- What an instruction may come to: control goes on to an instruction, stays at one or goes to the
end, and only instructions can be gone back to. -/
structure Leads (size : Nat) (exits : Mission → Prop) (result : Outcome × Mission) : Prop where
  next : ∀ i, result.1 = .next i → i < size ∨ i = Program.sentinel ∧ exits result.2
  stays : ∀ fault, result.1 = .aborted fault → result.2.index < size
  within : result.2.Within size

theorem leads_next {i : Nat} (hi : i < size) (h : m.Within size) :
    Leads size exits (.next i, m) where
  next j hj := by
    cases hj
    exact .inl hi
  stays := nofun
  within := h

theorem leads_exit (he : exits m) (h : m.Within size) :
    Leads size exits (.next Program.sentinel, m) where
  next j hj := by
    cases hj
    exact .inr ⟨rfl, he⟩
  stays := nofun
  within := h

theorem leads_failed (failure : Failure) (h : m.Within size) :
    Leads size exits (.failed failure, m) where
  next := nofun
  stays := nofun
  within := h

theorem leads_aborted (fault : SkillFault) (hindex : m.index < size) (h : m.Within size) :
    Leads size exits (.aborted fault, m) where
  next := nofun
  stays := fun _ _ => hindex
  within := h

theorem within_work {work : Workspace} (hm : m.Within size) (hindex : m.index + 1 < size)
    (hw : ReflTransGen (Workspace.Change ⟨m.config, m.index⟩) m.work work) :
    Within size { m with work } where
  calls := hm.calls
  recovery := hm.recovery.change hindex hw

theorem leads_follow {step : StepM Nat} (hm : m.Within size) (hindex : m.index + 1 < size)
    (hstep : step.Stepwise)
    (hnext : ∀ c w i w', step.result c w = (.ok i, w') → i < size) :
    Leads size exits (m.follow step) where
  next i hi := by
    unfold follow runStep at hi
    rcases hr : step.result ⟨m.config, m.index⟩ m.work with ⟨_ | j, work⟩
    · rw [hr] at hi
      cases hi
    · rw [hr] at hi
      cases hi
      exact .inl (hnext _ _ _ _ hr)
  stays fault h := absurd h (follow_ne_aborted step fault m)
  within := by
    obtain ⟨work, hw, h⟩ := follow_snd hstep m
    rw [h]
    exact within_work hm hindex hw

theorem checkCondition_leads {condition : String} {ifElse : Nat} (hm : m.Within size)
    (hindex : m.index + 1 < size) (helse : ifElse < size) :
    Leads size exits (m.checkCondition condition ifElse) := by
  refine leads_follow hm hindex ((StepM.holds_made condition).bind fun _ => .pure _) ?_
  intro c w i w' h
  rw [StepM.result_bind] at h
  split at h
  · next holds _ _ =>
    cases h
    cases holds
    · exact helse
    · exact hindex
  · cases h

theorem enterLoop_leads {guard count counter : String} {stop : Nat} (hm : m.Within size)
    (hindex : m.index + 1 < size) (hstop : stop < size) :
    Leads size exits (m.enterLoop guard count counter stop) := by
  have hresult : ∀ (test : StepM Bool) c w i w',
      (test >>= fun goOn => pure (if goOn then m.index + 1 else stop) : StepM Nat).result c w =
        (.ok i, w') → i < size := by
    intro test c w i w' h
    rw [StepM.result_bind] at h
    split at h
    · next goOn _ _ =>
      cases h
      cases goOn
      · exact hstop
      · exact hindex
    · cases h
  unfold enterLoop
  dsimp only
  split
  · exact leads_follow hm hindex ((countsOn_made count counter).bind fun _ => .pure _) (hresult _)
  · exact leads_follow hm hindex ((StepM.holds_made guard).bind fun _ => .pure _) (hresult _)

theorem doAction_leads {kind : String} {args : Entries Value} (hm : m.Within size)
    (hindex : m.index + 1 < size) : Leads size exits (m.doAction kind args) := by
  unfold doAction
  split
  · exact leads_aborted _ (Nat.lt_of_succ_lt hindex) hm
  · next act h =>
    refine leads_follow hm hindex ((action_stepwise h).bind fun _ => .pure _) ?_
    intro c w i w' hr
    rw [StepM.result_bind] at hr
    split at hr
    · cases hr
      exact hindex
    · cases hr

/-- A return goes back to an address of the call stack. -/
theorem leave_leads (hm : m.Within size) (hlt : m.index < size) (v : Value) :
    Leads size exits (m.leave v) := by
  rw [leave_eq]
  have hrest : m.calls.popFrame.1.Within size :=
    fun i hi => hm.calls i (CallStack.mem_of_mem_popFrame hi)
  split
  · next hp =>
    rw [hp] at hrest
    exact leads_aborted _ hlt ⟨hrest, hm.recovery⟩
  · next frame hp =>
    rw [hp] at hrest
    generalize returned frame v m.symbols = t
    exact leads_next (hm.calls _ (CallStack.mem_of_popFrame hp).1) ⟨hrest, hm.recovery⟩

theorem passStub_leads {kind : StubKind} (hm : m.Within size) (hlt : m.index < size)
    (hindex : m.index + 1 < size ∨ ∃ name, kind = .endSkill name) :
    Leads size (m.Exits (.stub kind)) (m.passStub kind) := by
  unfold passStub
  split
  · exact leave_leads hm hlt _
  · next name =>
    split
    · next hskills => exact leads_exit (.inl ⟨.endSkill name hskills, rfl⟩) hm
    · exact leave_leads hm hlt _
  · next hne =>
    refine leads_next (hindex.resolve_right fun ⟨name, h⟩ => ?_) hm
    exact hne name h

theorem giveBack_leads {source : String} (hm : m.Within size) (hlt : m.index < size) :
    Leads size exits (m.giveBack source) := by
  rw [giveBack_eq]
  split
  · exact leave_leads hm hlt _
  · split
    · next t v _ => exact leave_leads (m := m.setSymbols t) ⟨hm.calls, hm.recovery⟩ hlt v
    · exact leads_failed _ ⟨hm.calls, hm.recovery⟩

theorem call_leads {op : Op} {output : String} (h : op.output? = some output)
    (hm : m.Within size) (hindex : m.index + 1 < size)
    (htargets : ∀ target ∈ op.targets, target < size) : Leads size exits (m.perform op) := by
  obtain ⟨entry, t, skills, hjump, hp, -⟩ := perform_call h m
  rw [hp]
  refine leads_next (htargets entry ?_) ⟨CallStack.within_onto hm.calls hindex, hm.recovery⟩
  cases op <;> cases hjump <;> exact List.mem_singleton_self _

theorem handleException_leads {args : HandlerArgs} {stop : Nat} (hm : m.Within size)
    (hindex : m.index + 1 < size) (hstop : IsPlace size stop) :
    Leads size (m.Exits (.exceptionHandler args stop)) (m.handleException args stop) := by
  unfold handleException
  dsimp only
  split
  · next hhandling =>
    rcases hstop with hstop | rfl
    · exact leads_next hstop hm
    · exact leads_exit (.inl ⟨.handler args (by simpa using hhandling), rfl⟩) hm
  · split
    · split
      · next h =>
        obtain ⟨w, -, rfl⟩ := refreshPage_eq h
        exact leads_next hindex ⟨hm.calls, hm.recovery⟩
      · exact leads_failed _ ⟨hm.calls, hm.recovery⟩
    · exact leads_next hindex ⟨hm.calls, hm.recovery⟩

theorem within_unwind (hm : m.Within size) : m.unwind.Within size where
  calls := fun _ => nofun
  recovery := hm.recovery.clear m.symbols

/-- The index that a rollback gives is that of an instruction. -/
theorem rollBack_within (hm : m.Within size) :
    m.rollBack.2.Within size ∧ ∀ i, m.rollBack.1 = some i → i < size := by
  have hpoint := hm.recovery.rollBack m.symbols
  unfold rollBack
  dsimp only
  have hclosed := hpoint.1.resolve (m.recovery.rollBack m.symbols).2.1
  refine ⟨⟨hm.calls, hclosed.1⟩, fun i hi => ?_⟩
  rcases Option.or_eq_some_iff.1 hi with hi | ⟨-, hi⟩
  · exact hpoint.2 i hi
  · obtain ⟨e, he, rfl⟩ := Option.map_eq_some_iff.1 hi
    exact hclosed.2 e he

theorem endException_leads (hm : m.Within size) (hindex : m.index + 1 < size) :
    Leads size (m.Exits .endException) m.endException := by
  unfold endException
  split
  · exact leads_next hindex hm
  · next hhandling =>
    split
    · next hfailed =>
      exact leads_exit (.inr ⟨⟨rfl, by simpa using hhandling, hfailed⟩, rfl⟩) (within_unwind hm)
    · have hroll := rollBack_within hm
      rcases hr : m.rollBack with ⟨i, after⟩
      rw [hr] at hroll
      refine leads_next ?_ hroll.1
      cases i with
      | none => exact hindex
      | some i => exact hroll.2 i rfl

/-- An instruction of a linked program leads to a place. -/
theorem perform_leads {p : Program} (hp : p.Linked) {m : Mission} {op : Op}
    (hop : p.op? m.index = some op) (hm : m.Within p.size) :
    Leads p.size (m.Exits op) (m.perform op) := by
  have hlt : m.index < p.size := Program.lt_size_of_op? hop
  have htargets := hp.targets m.index op hop
  have hindex : ¬ op.Ends → m.index + 1 < p.size := fun hne =>
    Nat.lt_of_le_of_ne hlt fun he => hne (hp.last m.index op hop he)
  cases op with
  | checkCondition condition ifElse ifEnd =>
    exact checkCondition_leads hm (hindex nofun) (htargets ifElse List.mem_cons_self)
  | loop guard count counter stop =>
    exact enterLoop_leads hm (hindex nofun) (htargets stop List.mem_cons_self)
  | goto target increment =>
    have htarget := htargets target List.mem_cons_self
    cases increment <;> exact leads_next htarget ⟨hm.calls, hm.recovery⟩
  | stub kind =>
    refine passStub_leads hm hlt ?_
    by_cases hk : ∃ name, kind = .endSkill name
    · exact .inr hk
    · refine .inl (hindex fun he => ?_)
      cases he with
      | endSkill name => exact hk ⟨name, rfl⟩
  | callFunction name entry param arg output => exact call_leads rfl hm (hindex nofun) htargets
  | giveBack source => exact giveBack_leads hm hlt
  | useSkill name entry arg output => exact call_leads rfl hm (hindex nofun) htargets
  | overloadSkill name entry arg output => exact call_leads rfl hm (hindex nofun) htargets
  | exceptionHandler args stop =>
    exact handleException_leads hm (hindex nofun) (hp.blocks m.index _ stop hop rfl)
  | endException => exact endException_leads hm (hindex nofun)
  | finish => exact leads_exit (.inl ⟨.finish, rfl⟩) hm
  | action kind args => exact doAction_leads hm (hindex nofun)

end Perform

/-! ## Whole runs -/

/-- The handler that stands in for an index is an instruction. -/
theorem handlerFor_lt {p : Program} (hp : p.Linked) {index i : Nat}
    (h : p.handlerFor? index = some i) : i < p.size := by
  unfold Program.handlerFor? at h
  rcases Option.or_eq_some_iff.1 h with h | ⟨-, h⟩
  · obtain ⟨d, -, hi⟩ := Option.bind_eq_some_iff.1 h
    exact hp.handlers.get? hi
  · obtain ⟨d, -, hi⟩ := Option.bind_eq_some_iff.1 h
    exact hp.handlers.get? hi

theorem placed_begins {p : Program} (hsize : 0 < p.size) {m : Mission} (hm : m.Begins p) :
    m.Placed p := by
  obtain ⟨world, config, t, -, rfl⟩ := hm.eq_initial
  exact ⟨rfl, .inl hsize, fun _ => nofun, fun _ => nofun, fun _ => nofun⟩

/-- A failed instruction is passed over to its fallback, which is an instruction. -/
theorem fallback_lt {p : Program} (hp : p.Linked) {index : Nat} {op : Op}
    (hop : p.op? index = some op) (hne : ¬ op.Ends) : fallback index op < p.size := by
  have hnext : index + 1 < p.size := Nat.lt_of_le_of_ne (Program.lt_size_of_op? hop)
    fun he => hne (hp.last index op hop he)
  cases op with
  | checkCondition => exact hp.targets index _ hop _ List.mem_cons_self
  | loop => exact hp.targets index _ hop _ List.mem_cons_self
  | _ => exact hnext

theorem leave_ne_failed (v : Value) (failure : Failure) (m : Mission) :
    (m.leave v).1 ≠ .failed failure := by
  rw [leave_eq]
  split <;> nofun

/-- What ends a program or jumps does not fail. -/
theorem not_ends_of_failed {op : Op} {m after : Mission} {failure : Failure}
    (h : m.perform op = (.failed failure, after)) : ¬ op.Ends := by
  have hfailed : (m.perform op).1 = .failed failure := by rw [h]
  intro he
  cases he with
  | finish => cases hfailed
  | goto target increment => cases increment <;> cases hfailed
  | endSkill name =>
    change (if m.skills.isEmpty then _ else m.leave _).1 = _ at hfailed
    split at hfailed
    · cases hfailed
    · exact leave_ne_failed _ _ _ hfailed

theorem step_placed {p : Program} (hp : p.Linked) {m : Mission} (hm : m.Placed p) :
    m.step.2.Placed p := by
  have hprogram := m.step_sameRun.program.trans hm.program
  rw [step_snd] at hprogram ⊢
  generalize hr : m.tick = r at hprogram ⊢
  have h := m.ticked
  rw [hr] at h
  have hleads : ∀ i : Instruction, m.program.instructions[m.index]? = some i →
      p.op? m.index = some i.op ∧ Leads p.size (m.Exits i.op) (m.perform i.op) := by
    intro i hi
    have hop : p.op? m.index = some i.op := by
      rw [← hm.program]
      exact congrArg (Option.map Instruction.op) hi
    exact ⟨hop, perform_leads hp hop hm.within⟩
  cases h with
  | none hi => exact ⟨hm.program, .inr rfl, hm.within.calls, hm.within.recovery⟩
  | @aborted i fault after hi hperform =>
    have hl := (hleads i hi).2
    rw [hperform] at hl
    exact ⟨hprogram, .inl (hl.stays fault rfl), hl.within⟩
  | @next i index after hi hperform =>
    have hl := (hleads i hi).2
    rw [hperform] at hl
    exact ⟨hprogram, (hl.next index rfl).imp_right And.left, hl.within.calls, hl.within.recovery⟩
  | @failed i failure after tag hi hperform =>
    obtain ⟨hop, hl⟩ := hleads i hi
    rw [hperform] at hl
    exact ⟨hprogram, .inl (fallback_lt hp hop (not_ends_of_failed hperform)), hl.within.calls,
      hl.within.recovery⟩

theorem placed_unwind {p : Program} {m : Mission} (hm : m.Placed p) : m.unwind.Placed p :=
  ⟨hm.program, .inr rfl, within_unwind hm.within⟩

theorem placed_fail {p : Program} {m : Mission} (hm : m.Placed p) (reason : String) :
    (m.fail reason).Placed p :=
  placed_unwind ⟨hm.program, hm.index, hm.within.calls, hm.within.recovery⟩

theorem placed_setWorld {p : Program} {m : Mission} (hm : m.Placed p) (w : World) :
    (m.setWorld w).Placed p := ⟨hm.program, hm.index, hm.within.calls, hm.within.recovery⟩

theorem placed_reconnect {p : Program} {m : Mission} (hm : m.Placed p) : m.reconnect.Placed p := by
  have hback : ∀ m' : Mission, m'.Placed p →
      ({ (m'.setSymbols (m'.symbols.setFlag Reserved.netConnected true)).rollBack.2 with
        index := (m'.setSymbols (m'.symbols.setFlag Reserved.netConnected true)).rollBack.1.getD
          m'.index } : Mission).Placed p := by
    intro m' hm'
    have hwithin : (m'.setSymbols (m'.symbols.setFlag Reserved.netConnected true)).Within p.size :=
      ⟨hm'.within.calls, hm'.within.recovery⟩
    have hroll := rollBack_within hwithin
    refine ⟨hm'.program, ?_, hroll.1.calls, hroll.1.recovery⟩
    cases hi : (m'.setSymbols (m'.symbols.setFlag Reserved.netConnected true)).rollBack.1 with
    | none => exact hm'.index
    | some i => exact .inl (hroll.2 i hi)
  unfold reconnect
  cases h : m.refreshPage with
  | error fault => exact hback m hm
  | ok m' =>
    obtain ⟨w, -, rfl⟩ := refreshPage_eq h
    exact hback _ (placed_setWorld hm w)

theorem placed_recover {p : Program} {m : Mission} (hm : m.Placed p) : m.recover.Placed p := by
  unfold recover
  dsimp only
  split
  · exact placed_reconnect (placed_setWorld hm _)
  · exact placed_fail (placed_setWorld hm _) _

theorem preserved_placed {p : Program} (hp : p.Linked) : Preserved (Placed p) where
  drained m d hd hm := by
    obtain ⟨w, b, -, rfl⟩ := hd
    exact ⟨hm.program, hm.index, hm.within.calls, hm.within.recovery⟩
  unwind _ hm := placed_unwind hm
  fail _ reason hm := placed_fail hm reason
  recover _ hm := placed_recover hm
  divert m i hi hm := by
    refine ⟨hm.program, .inl ?_, hm.within.calls, hm.within.recovery⟩
    rw [hm.program] at hi
    exact handlerFor_lt hp hi
  step _ hm := step_placed hp hm

/-- No control transfer dangles: every target in a resolved program is an instruction and no part of a
construct is left, and every state of a run stands at a place and can go back to instructions only,
also when its next instruction is about to be executed. -/
theorem transfers_placed {main : SkillDocument} {library : SkillLibrary} {p : Program}
    (hp : resolve main library = .ok p) :
    (∀ (j : Nat) (i : Instruction), p.instructions[j]? = some i →
      (∀ target ∈ i.op.targets, target < p.size) ∧
      ∀ kind, i.op = .stub kind → kind.isPart = false) ∧
    ∀ m : Mission, m.Begins p → ∀ n, (m.after n).Placed p ∧
      ∀ r, (m.after n).boundary = .ready r → r.Placed p := by
  obtain ⟨hlinked, hsize⟩ := linked_of_resolve hp
  refine ⟨fun j i hi => ?_, fun m hm n => ?_⟩
  · have hop : p.op? j = some i.op := congrArg (Option.map Instruction.op) hi
    exact ⟨hlinked.targets j i.op hop, fun kind hk => hlinked.parts j kind (hk ▸ hop)⟩
  · have hplaced := (preserved_placed hlinked).after (placed_begins hsize hm) n
    exact ⟨hplaced, fun r hr => (preserved_placed hlinked).ready hr hplaced⟩

theorem transfers_placed_calling :
    (∀ (j : Nat) (i : Instruction), callingProgram.instructions[j]? = some i →
      (∀ target ∈ i.op.targets, target < callingProgram.size) ∧
      ∀ kind, i.op = .stub kind → kind.isPart = false) ∧
    ∀ n, (callingMission.after n).Placed callingProgram ∧
      ∀ r, (callingMission.after n).boundary = .ready r → r.Placed callingProgram :=
  have h := transfers_placed resolve_callingDocument
  ⟨h.1, h.2 callingMission callingMission_begins⟩

end Mission

end Deskhand
