import Deskhand.Mission.Run
import Deskhand.Proofs.Actions
import Mathlib.Logic.Function.Iterate

/-!
# Runs of missions

The states of a run are the missions after so many turns (`Mission.after`). A turn takes the commands
that came in and then ends the mission, recovers, or executes one instruction; which of these it is
says `Mission.Reaches`. What an instruction does to a mission is said once as well
(`Mission.Performed`). A property that each of these keeps (`Mission.Preserved`) holds along the whole
run. The first such properties: the program, the settings and the external operations stay.
-/

namespace Deskhand

open Relation (ReflTransGen)

theorem Workspace.Change.external {c : StepContext} {w w' : Workspace}
    (h : w.Change c w') : w'.world.external = w.world.external := by
  cases h with
  | symbols _ => rfl
  | world h => exact h
  | record => rfl
  | raise _ => rfl

/-- The running skills after a return from a call stack of a size: the newest one is over if its
frame is on top. -/
def SkillStack.leftAt (size : Nat) (s : SkillStack) : SkillStack :=
  match s.top? with
  | some frame => if frame.depth = size then s.pop else s
  | none => s

/-- A frame at rest on top of a stack. -/
def CallStack.onto (f : CallFrame) (s : CallStack) : CallStack := ⟨frameEntries f ++ s.entries⟩

/-- The name that a call gives its result to; only calls have one. -/
def Op.output? : Op → Option String
  | callFunction _ _ _ _ output => some output
  | useSkill _ _ _ output => some output
  | overloadSkill _ _ _ output => some output
  | _ => none

namespace Mission

/-! ## The states of a run -/

/-- The mission after a number of turns; one that is over stays as it is. -/
def after (n : Nat) (m : Mission) : Mission := (fun m : Mission => m.turn.2)^[n] m

@[simp] theorem after_zero (m : Mission) : m.after 0 = m := rfl

theorem after_succ (n : Nat) (m : Mission) : m.after (n + 1) = (m.after n).turn.2 :=
  Function.iterate_succ_apply' _ n m

theorem turn_after (n : Nat) (m : Mission) : m.turn.2.after n = m.after (n + 1) :=
  (Function.iterate_succ_apply _ n m).symm

theorem after_add (j k : Nat) (m : Mission) : m.after (j + k) = (m.after j).after k := by
  rw [Nat.add_comm]
  exact Function.iterate_add_apply _ k j m

/-- A mission of a program before its first turn; variables may have been bound already. -/
def Begins (p : Program) (m : Mission) : Prop :=
  ∃ world config start t, create p world config = .ok start ∧ m = start.setSymbols t

theorem Begins.eq_initial {p : Program} {m : Mission} (h : m.Begins p) :
    ∃ world config t, unknownAction? p world.external = none ∧
      m = (initial p world config).setSymbols t := by
  obtain ⟨world, config, start, t, hs, rfl⟩ := h
  unfold create at hs
  split at hs
  · cases hs
  · next hu =>
    cases hs
    exact ⟨world, config, t, hu, rfl⟩

/-! ## Taking commands -/

/-- The world and whether the mission is paused are all that commands change. -/
def Drained (m d : Mission) : Prop :=
  ∃ w b, w.external = m.world.external ∧ d = { m.setWorld w with paused := b }

theorem Drained.refl (m : Mission) : m.Drained m := ⟨m.world, m.paused, rfl, rfl⟩

theorem Drained.trans {m d e : Mission} (h : m.Drained d) (h' : d.Drained e) : m.Drained e := by
  obtain ⟨w, b, hw, rfl⟩ := h
  obtain ⟨w', b', hw', rfl⟩ := h'
  exact ⟨w', b', hw'.trans hw, rfl⟩

theorem drained_setWorld {m : Mission} {w : World} (h : w.external = m.world.external) :
    m.Drained (m.setWorld w) := ⟨w, m.paused, h, rfl⟩

theorem drained_modifyRemote (f : Remote → Remote) (m : Mission) : m.Drained (m.modifyRemote f) :=
  drained_setWorld rfl

theorem drained_obey (command : Command) (m : Mission) : m.Drained (m.obey command).2 := by
  cases command with
  | cancel => exact .refl m
  | pause => exact ⟨m.world, true, rfl, rfl⟩
  | resume => exact ⟨m.world, false, rfl, rfl⟩
  | status => exact drained_modifyRemote _ m

theorem drained_takeCommands (fuel : Nat) (m : Mission) : m.Drained (m.takeCommands fuel).2 := by
  induction fuel generalizing m with
  | zero => exact .refl m
  | succ fuel ih =>
    unfold takeCommands
    dsimp only
    split
    · exact .refl m
    · split
      · exact .refl m
      · split
        · next command rest _ =>
          have ho := (drained_modifyRemote (fun r => { r with inbox := rest }) m).trans
            (drained_obey command _)
          split
          · next m' h =>
            rw [h] at ho
            exact ho
          · next m' h =>
            rw [h] at ho
            exact ho.trans (ih m')
        · split
          · exact .refl m
          · split
            · next s _ _ => exact (drained_setWorld rfl).trans (ih (m.awaitCommand s.due))
            · exact ⟨{ m.world with remote := { m.world.remote with connected := false } }, false,
                rfl, rfl⟩

theorem drained_drain (m : Mission) : m.Drained m.drain.2 := drained_takeCommands _ m

/-- Reloading the page changes the world only. -/
theorem refreshPage_eq {m m' : Mission} (h : m.refreshPage = .ok m') :
    ∃ w, m.world.Passes w ∧ m' = m.setWorld w := by
  unfold refreshPage at h
  cases hw : m.world.refreshPage with
  | error fault => rw [hw] at h; cases h
  | ok w =>
    rw [hw] at h
    cases h
    exact ⟨w, World.refreshPage_passes hw, rfl⟩

/-! ## What a turn does -/

/-- What a turn has come to when the commands are taken. -/
inductive Boundary where
  | finished
  | cancelled (d : Mission)
  | exhausted (limit : Nat) (d : Mission)
  | recovering (d : Mission)
  /-- The next instruction is executed, that of an exception handler if it stands in. -/
  | ready (r : Mission)

def boundary (m : Mission) : Boundary :=
  if m.isDone then .finished
  else
    match m.drain with
    | (true, d) => .cancelled d
    | (false, d) =>
      match d.outOfSteps with
      | some limit => .exhausted limit d
      | none =>
        if d.symbols.flag Reserved.inException && !d.handling then
          match d.program.handlerFor? d.index with
          | some handler => .ready { d with handling := true, index := handler }
          | none => .recovering d
        else .ready d

/-- The rest of the turn of a mission. -/
def Boundary.proceed (m : Mission) : Boundary → Turn × Mission
  | finished => (.over, m)
  | cancelled d => (.cancelled, d.unwind)
  | exhausted limit d => (.over, d.fail s!"step budget of {limit} exhausted")
  | recovering d => (.goOn, d.recover)
  | ready r => r.step

theorem turn_eq (m : Mission) : m.turn = m.boundary.proceed m := by
  unfold turn boundary
  cases m.isDone with
  | true => rfl
  | false =>
    rcases m.drain with ⟨_ | _, d⟩
    · cases hout : d.outOfSteps with
      | some limit => simp only [hout]; rfl
      | none =>
        cases hex : d.symbols.flag Reserved.inException && !d.handling with
        | true =>
          cases hh : d.program.handlerFor? d.index <;> simp only [hout, hex, hh, if_true] <;> rfl
        | false => simp only [hout, hex, Bool.false_eq_true, if_false]; rfl
    · rfl

/-- How a turn comes to each boundary. -/
inductive Reaches (m : Mission) : Boundary → Prop
  | finished (hdone : m.isDone = true) : Reaches m .finished
  | cancelled {d : Mission} (hdone : m.isDone = false) (hdrain : m.drain = (true, d)) :
    Reaches m (.cancelled d)
  | exhausted {d : Mission} {limit : Nat} (hdone : m.isDone = false)
    (hdrain : m.drain = (false, d)) (hout : d.outOfSteps = some limit) :
    Reaches m (.exhausted limit d)
  | recovering {d : Mission} (hdone : m.isDone = false) (hdrain : m.drain = (false, d))
    (hout : d.outOfSteps = none)
    (hwaits : (d.symbols.flag Reserved.inException && !d.handling) = true)
    (hnone : d.program.handlerFor? d.index = none) : Reaches m (.recovering d)
  | diverted {d : Mission} {i : Nat} (hdone : m.isDone = false) (hdrain : m.drain = (false, d))
    (hout : d.outOfSteps = none) (hi : d.program.handlerFor? d.index = some i) :
    Reaches m (.ready { d with handling := true, index := i })
  | ready {d : Mission} (hdone : m.isDone = false) (hdrain : m.drain = (false, d))
    (hout : d.outOfSteps = none)
    (hcalm : (d.symbols.flag Reserved.inException && !d.handling) = false) : Reaches m (.ready d)

theorem reaches (m : Mission) : m.Reaches m.boundary := by
  unfold boundary
  cases hdone : m.isDone with
  | true => exact .finished hdone
  | false =>
    rw [if_neg Bool.false_ne_true]
    rcases hdrain : m.drain with ⟨_ | _, d⟩
    · cases hout : d.outOfSteps with
      | some limit => simp only [hout]; exact .exhausted hdone hdrain hout
      | none =>
        simp only [hout]
        split
        · next hwaits =>
          split
          · next i hi => exact .diverted hdone hdrain hout hi
          · next hnone => exact .recovering hdone hdrain hout hwaits hnone
        · next hcalm => exact .ready hdone hdrain hout (Bool.eq_false_iff.2 hcalm)
    · exact .cancelled hdone hdrain

/-- The commands were taken first, whatever a turn has come to. -/
def Boundary.Sound (m : Mission) : Boundary → Prop
  | finished => m.isDone = true
  | cancelled d | exhausted _ d | recovering d => m.isDone = false ∧ m.Drained d
  | ready r => m.isDone = false ∧ ∃ d, m.Drained d ∧
      (r = d ∨ ∃ i, d.program.handlerFor? d.index = some i ∧
        r = { d with handling := true, index := i })

theorem boundary_sound (m : Mission) : m.boundary.Sound m := by
  have hd := m.drained_drain
  have h := m.reaches
  generalize m.boundary = b at h ⊢
  cases h with
  | finished hdone => exact hdone
  | cancelled hdone hdrain | exhausted hdone hdrain | recovering hdone hdrain =>
    rw [hdrain] at hd
    exact ⟨hdone, hd⟩
  | diverted hdone hdrain hout hi =>
    rw [hdrain] at hd
    exact ⟨hdone, _, hd, .inr ⟨_, hi, rfl⟩⟩
  | ready hdone hdrain =>
    rw [hdrain] at hd
    exact ⟨hdone, _, hd, .inl rfl⟩

theorem turn_of_ready {m r : Mission} (h : m.boundary = .ready r) : m.turn = r.step := by
  rw [turn_eq, h]
  rfl

theorem turn_of_isDone {m : Mission} (h : m.isDone = true) : m.turn = (.over, m) := by
  unfold turn
  rw [if_pos h]

/-- A mission that is over stays as it is. -/
theorem after_of_isDone {m : Mission} (h : m.isDone = true) (n : Nat) : m.after n = m := by
  induction n with
  | zero => rfl
  | succ n ih => rw [after_succ, ih, turn_of_isDone h]

theorem not_isDone_of_ready {m r : Mission} (h : m.boundary = .ready r) : m.isDone = false := by
  have hs := m.boundary_sound
  rw [h] at hs
  exact hs.1

/-! ## What an instruction does -/

/-- The ways the next instruction can come out. -/
inductive Ticked (m : Mission) : Except SkillFault StepStatus × Mission → Prop
  | none (hi : m.program.instructions[m.index]? = none) :
    Ticked m (.ok .completed, { m with index := Program.sentinel })
  | aborted {i : Instruction} {fault : SkillFault} {after : Mission}
    (hi : m.program.instructions[m.index]? = some i)
    (hp : m.perform i.op = (.aborted fault, after)) : Ticked m (.error fault, after)
  | next {i : Instruction} {index : Nat} {after : Mission}
    (hi : m.program.instructions[m.index]? = some i)
    (hp : m.perform i.op = (.next index, after)) :
    Ticked m (.ok .completed, { after with index, stepsExecuted := after.stepsExecuted + 1 })
  | failed {i : Instruction} {failure : Failure} {after : Mission} (tag : String)
    (hi : m.program.instructions[m.index]? = some i)
    (hp : m.perform i.op = (.failed failure, after)) :
    Ticked m (.ok (.failed tag), { after with
      index := fallback m.index i.op
      stepsExecuted := m.stepsExecuted + 1
      lastError := some tag })

theorem ticked (m : Mission) : m.Ticked m.tick := by
  unfold tick
  split
  · next hi => exact .none hi
  · next i hi =>
    split
    · next hp => exact .aborted hi hp
    · next hp => exact .next hi hp
    · next hp => exact .failed _ hi hp

/-- An instruction that says where control goes next is completed. -/
theorem tick_next {m after : Mission} {i : Instruction} {index : Nat}
    (hi : m.program.instructions[m.index]? = some i) (hp : m.perform i.op = (.next index, after)) :
    m.tick = (.ok .completed, { after with index, stepsExecuted := after.stepsExecuted + 1 }) := by
  unfold tick
  rw [hi]
  dsimp only
  rw [hp]

/-- An instruction is completed only if it says where control goes next. -/
theorem next_of_completed {m : Mission} {i : Instruction}
    (hi : m.program.instructions[m.index]? = some i) (h : m.tick.1 = .ok .completed) :
    ∃ index after, m.perform i.op = (.next index, after) := by
  unfold tick at h
  rw [hi] at h
  dsimp only at h
  split at h
  · cases h
  · next hp => exact ⟨_, _, hp⟩
  · cases h

theorem step_snd (m : Mission) : m.step.2 = m.tick.2 := by
  unfold step
  split
  · next h => rw [h]
  · next h => rw [h]

/-- A step ends the run by a fault of what its instruction does. -/
theorem step_aborted {m : Mission} {fault : SkillFault} (h : m.step.1 = .aborted fault) :
    ∃ i, m.program.instructions[m.index]? = some i ∧ (m.perform i.op).1 = .aborted fault := by
  unfold step at h
  generalize hr : m.tick = r at h
  have ht := m.ticked
  rw [hr] at ht
  cases ht with
  | @aborted i _ _ hi hp =>
    cases h
    exact ⟨i, hi, by rw [hp]⟩
  | _ => cases h

/-- A part of a step changes the workspace only. -/
theorem follow_work (step : StepM Nat) (m : Mission) :
    (m.follow step).2 = { m with work := (step.result ⟨m.config, m.index⟩ m.work).2 } := by
  unfold follow runStep
  rcases step.result ⟨m.config, m.index⟩ m.work with ⟨_ | _, work⟩ <;> rfl

section Made

variable {R : StepContext → Workspace → Workspace → Prop}

theorem follow_snd {step : StepM Nat} (h : StepM.Made R step) (m : Mission) :
    ∃ work, ReflTransGen (R ⟨m.config, m.index⟩) m.work work ∧ (m.follow step).2 = { m with work } :=
  ⟨_, h ⟨m.config, m.index⟩ m.work, m.follow_work step⟩

variable [Workspace.Admits R]

theorem checkCondition_snd (condition : String) (ifElse : Nat) (m : Mission) :
    ∃ work, ReflTransGen (R ⟨m.config, m.index⟩) m.work work ∧
      (m.checkCondition condition ifElse).2 = { m with work } :=
  follow_snd ((StepM.holds_made condition).bind fun _ => .pure _) m

theorem countsOn_made (count counter : String) : StepM.Made R (countsOn count counter) := by
  refine (StepM.numberOr_made _ _).bind fun limit =>
    (StepM.Made.get.bind fun _ => .pure _).bind fun v => ?_
  split
  · exact .pure _
  · exact .throw _

theorem enterLoop_snd (guard count counter : String) (stop : Nat) (m : Mission) :
    ∃ work, ReflTransGen (R ⟨m.config, m.index⟩) m.work work ∧
      (m.enterLoop guard count counter stop).2 = { m with work } := by
  refine follow_snd ?_ m
  dsimp only
  split
  · exact (countsOn_made count counter).bind fun _ => .pure _
  · exact (StepM.holds_made guard).bind fun _ => .pure _

/-- An action puts down a rollback point, if it does so at all, when all else is done. -/
theorem doAction_recording [Workspace.AdmitsRaise R] (kind : String) (args : Entries Value)
    (hdeclare : ∀ name ∈ declaredBy? args kind, Workspace.AdmitsDeclare R name) (m : Mission) :
    ∃ work, ReflTransGen (R ⟨m.config, m.index⟩) m.work work ∧
      ((m.doAction kind args).2 = { m with work } ∨
        (m.doAction kind args).2 = { m with work := work.recorded ⟨m.config, m.index⟩ }) := by
  unfold doAction
  split
  · exact ⟨m.work, .refl, .inl rfl⟩
  · next act h =>
    have hwork : (StepM.result (do act; return m.index + 1) ⟨m.config, m.index⟩ m.work).2 =
        (act.result ⟨m.config, m.index⟩ m.work).2 := by
      rw [StepM.result_bind]
      rcases act.result ⟨m.config, m.index⟩ m.work with ⟨e | a, work⟩ <;> rfl
    obtain ⟨work, hw, hend⟩ := (action_closed h hdeclare).recording ⟨m.config, m.index⟩ m.work
    rw [follow_work, hwork]
    rcases hend with hend | hend
    · exact ⟨work, hw, .inl (by rw [hend])⟩
    · exact ⟨work, hw, .inr (by rw [hend])⟩

end Made

/-- An action, or whatever else a step works on its workspace by. -/
theorem doAction_snd (kind : String) (args : Entries Value) (m : Mission) :
    ∃ work, ReflTransGen (Workspace.Change ⟨m.config, m.index⟩) m.work work ∧
      (m.doAction kind args).2 = { m with work } := by
  unfold doAction
  split
  · exact ⟨m.work, .refl, rfl⟩
  · next h => exact follow_snd ((action_stepwise h).bind fun _ => .pure _) m

/-- A `Return` finds its value by one more operation on the variables. -/
theorem giveBack_eq (source : String) (m : Mission) :
    m.giveBack source =
      if Text.isBlankText source then m.leave (m.symbols.value Reserved.fout)
      else
        match m.symbols.evaluate source with
        | (t, .ok v) => (m.setSymbols t).leave v
        | (t, .error e) => (.failed (.expression e), m.setSymbols t) := by
  unfold giveBack
  split
  · rfl
  · have hrun : m.runStep (StepM.evaluate source) =
        ((m.symbols.evaluate source).2.mapError .expression,
          m.setSymbols (m.symbols.evaluate source).1) := by
      unfold runStep StepM.evaluate
      rw [StepM.result_withSymbols]
      rfl
    rw [hrun]
    rcases m.symbols.evaluate source with ⟨t, _ | v⟩ <;> rfl

/-- The variables after a return to a frame with a value. -/
def returned (frame : CallFrame) (v : Value) (t : SymbolTable) : SymbolTable :=
  let t := (t.set Reserved.fin frame.fin).set Reserved.fout frame.fout
  let output := Text.trim frame.output
  if output = "" then t else t.declare output v

theorem leave_eq (v : Value) (m : Mission) :
    m.leave v =
      match m.calls.popFrame with
      | (calls, none) =>
        (.aborted (.stackUnderflow m.index),
          { m with skills := m.skills.leftAt m.calls.size, calls })
      | (calls, some frame) =>
        (.next frame.returnTo,
          { m.setSymbols (returned frame v m.symbols) with
            skills := m.skills.leftAt m.calls.size, calls }) := rfl

/-! ## What an instruction does -/

/-- The frame that a call pushes. -/
def callFrame (output : String) (m : Mission) : CallFrame :=
  ⟨m.index + 1, m.symbols.value Reserved.fout, m.symbols.value Reserved.fin, output⟩

/-- What an instruction does to a mission. It works on the workspace; a call pushes a frame, which may
be that of a skill, and a return takes one off. The end of a handler's block may also leave
everything, or go back to a rollback point. -/
inductive Performed (op : Op) (m : Mission) : Outcome × Mission → Prop
  | worked {outcome : Outcome} {work : Workspace} {lastError : Option String}
    (hw : work.world.external = m.world.external) :
    Performed op m (outcome, { m with work, lastError })
  | called {outcome : Outcome} {work : Workspace} {output : String}
    (hw : work.world.external = m.world.external) (hop : op.output? = some output) :
    Performed op m (outcome, { m with work, calls := m.calls.onto (m.callFrame output) })
  | entered {outcome : Outcome} {work : Workspace} {output name : String}
    (hw : work.world.external = m.world.external) (hop : op.output? = some output) :
    Performed op m (outcome, { m with
      work
      calls := m.calls.onto (m.callFrame output)
      skills := m.skills.push name (m.calls.onto (m.callFrame output)).size })
  | returned {outcome : Outcome} {work : Workspace}
    (hw : work.world.external = m.world.external) : Performed op m (outcome, { m with
      work, calls := m.calls.popFrame.1, skills := m.skills.leftAt m.calls.size })
  | unwound : Performed op m (.next Program.sentinel, m.unwind)
  | backed {outcome : Outcome} : Performed op m (outcome, m.rollBack.2)

section Performed

variable {op : Op} {m : Mission}

theorem performed_of_work {r : Outcome × Mission} {c : StepContext}
    (h : ∃ work, ReflTransGen (Workspace.Change c) m.work work ∧ r.2 = { m with work }) :
    m.Performed op r := by
  obtain ⟨outcome, after⟩ := r
  obtain ⟨work, hchanges, rfl⟩ := h
  refine .worked ?_
  induction hchanges with
  | refl => rfl
  | tail _ hlast ih => exact hlast.external.trans ih

theorem leave_performed (v : Value) (t : SymbolTable) :
    m.Performed op ((m.setSymbols t).leave v) := by
  have hreturned : ∀ (outcome : Outcome) (t : SymbolTable) (calls : CallStack),
      calls = m.calls.popFrame.1 → m.Performed op (outcome, { m.setSymbols t with
        skills := m.skills.leftAt m.calls.size, calls }) := by
    rintro outcome t calls rfl
    exact .returned rfl
  rw [leave_eq]
  split
  · next calls h => exact hreturned _ t calls (congrArg Prod.fst h).symm
  · next calls frame h => exact hreturned _ _ calls (congrArg Prod.fst h).symm

theorem passStub_performed (kind : StubKind) : m.Performed op (m.passStub kind) := by
  unfold passStub
  split
  · exact leave_performed _ m.symbols
  · split
    · exact .worked rfl
    · exact leave_performed _ m.symbols
  · exact .worked rfl

theorem giveBack_performed (source : String) : m.Performed op (m.giveBack source) := by
  rw [giveBack_eq]
  split
  · exact leave_performed _ m.symbols
  · split
    · next t v _ => exact leave_performed v t
    · exact .worked rfl

theorem callFunction_performed {output : String} (hop : op.output? = some output) (entry : Nat)
    (param arg : String) : m.Performed op (m.callFunction entry param arg output) := by
  unfold callFunction
  dsimp only
  split
  · exact .called rfl hop
  · exact .called rfl hop

theorem useSkill_performed {output : String} (hop : op.output? = some output) (name : String)
    (entry : Nat) (arg : String) : m.Performed op (m.useSkill name entry arg output) :=
  .entered rfl hop

theorem handleException_performed (args : HandlerArgs) (stop : Nat) :
    m.Performed op (m.handleException args stop) := by
  have hretry := (m.world.retry_passes (m.recovery.config.policyFor (some args))).external
  unfold handleException
  dsimp only
  split
  · exact .worked rfl
  · split
    · next w hr =>
      rw [hr] at hretry
      split
      · next h =>
        obtain ⟨w', hw', rfl⟩ := refreshPage_eq h
        exact .worked (hw'.external.trans hretry)
      · exact .worked hretry
    · next w hr =>
      rw [hr] at hretry
      exact .worked hretry

theorem endException_performed : m.Performed op m.endException := by
  unfold endException
  split
  · exact .worked rfl
  · split
    · exact .unwound
    · exact .backed

variable (op m) in
theorem performed : m.Performed op (m.perform op) := by
  cases op with
  | checkCondition condition ifElse ifEnd =>
    exact performed_of_work (m.checkCondition_snd condition ifElse)
  | loop guard count counter stop =>
    exact performed_of_work (m.enterLoop_snd guard count counter stop)
  | goto target increment => cases increment <;> exact .worked rfl
  | stub kind => exact passStub_performed kind
  | callFunction name entry param arg output => exact callFunction_performed rfl entry param arg
  | giveBack source => exact giveBack_performed source
  | useSkill name entry arg output => exact useSkill_performed rfl name entry arg
  | overloadSkill name entry arg output => exact useSkill_performed rfl name entry arg
  | exceptionHandler args stop => exact handleException_performed args stop
  | endException => exact endException_performed
  | finish => exact .worked rfl
  | action kind args => exact performed_of_work (m.doAction_snd kind args)

end Performed

/-! ## What stays along a run -/

/-- The same program is run with the same settings and the same external operations. -/
structure SameRun (m m' : Mission) : Prop where
  program : m'.program = m.program
  config : m'.config = m.config
  external : m'.world.external = m.world.external

namespace SameRun

theorem refl (m : Mission) : m.SameRun m := ⟨rfl, rfl, rfl⟩

theorem trans {m m' m'' : Mission} (h : m.SameRun m') (h' : m'.SameRun m'') : m.SameRun m'' :=
  ⟨h'.program.trans h.program, h'.config.trans h.config, h'.external.trans h.external⟩

theorem drained {m d : Mission} (h : m.Drained d) : m.SameRun d := by
  obtain ⟨w, b, hw, rfl⟩ := h
  exact ⟨rfl, rfl, hw⟩

theorem setWorld {m : Mission} {w : World} (h : w.external = m.world.external) :
    m.SameRun (m.setWorld w) := ⟨rfl, rfl, h⟩

theorem rollBack (m : Mission) : m.SameRun m.rollBack.2 := ⟨rfl, rfl, rfl⟩

theorem refreshPage {m m' : Mission} (h : m.refreshPage = .ok m') : m.SameRun m' := by
  obtain ⟨w, hw, rfl⟩ := refreshPage_eq h
  exact setWorld hw.external

theorem reconnect (m : Mission) : m.SameRun m.reconnect := by
  unfold Mission.reconnect
  cases h : m.refreshPage with
  | error fault => exact ⟨rfl, rfl, rfl⟩
  | ok m' => exact (refreshPage h).trans ⟨rfl, rfl, rfl⟩

theorem recover (m : Mission) : m.SameRun m.recover := by
  have hw := (m.world.retry_passes (m.recovery.config.policyFor none)).external
  unfold Mission.recover
  rcases hr : m.world.retry (m.recovery.config.policyFor none) with ⟨_ | attempts, w⟩
  · rw [hr] at hw
    simp only [hr]
    exact (setWorld hw).trans (reconnect _)
  · rw [hr] at hw
    simp only [hr]
    exact ⟨rfl, rfl, hw⟩

end SameRun

theorem perform_sameRun (m : Mission) (op : Op) : m.SameRun (m.perform op).2 := by
  have h := m.performed op
  generalize m.perform op = r at h
  cases h with
  | worked hw => exact ⟨rfl, rfl, hw⟩
  | called hw hop => exact ⟨rfl, rfl, hw⟩
  | entered hw hop => exact ⟨rfl, rfl, hw⟩
  | returned hw => exact ⟨rfl, rfl, hw⟩
  | unwound => exact ⟨rfl, rfl, rfl⟩
  | backed => exact .rollBack m

theorem step_sameRun (m : Mission) : m.SameRun m.step.2 := by
  rw [step_snd]
  generalize hr : m.tick = r
  have h := m.ticked
  rw [hr] at h
  cases h with
  | none hi => exact ⟨rfl, rfl, rfl⟩
  | @aborted i _ _ hi hp =>
    have hs := m.perform_sameRun i.op
    rw [hp] at hs
    exact hs
  | @next i _ _ hi hp =>
    have hs := m.perform_sameRun i.op
    rw [hp] at hs
    exact hs.trans ⟨rfl, rfl, rfl⟩
  | @failed i _ _ tag hi hp =>
    have hs := m.perform_sameRun i.op
    rw [hp] at hs
    exact hs.trans ⟨rfl, rfl, rfl⟩

/-- A property of missions that everything keeps that a turn may do. -/
structure Preserved (I : Mission → Prop) : Prop where
  drained : ∀ m d, m.Drained d → I m → I d
  unwind : ∀ m, I m → I m.unwind
  fail : ∀ m reason, I m → I (m.fail reason)
  recover : ∀ m, I m → I m.recover
  divert : ∀ m i, m.program.handlerFor? m.index = some i → I m →
    I { m with handling := true, index := i }
  step : ∀ m, I m → I m.step.2

namespace Preserved

variable {I : Mission → Prop}

theorem ready (hI : Preserved I) {m r : Mission} (hr : m.boundary = .ready r) (hm : I m) : I r := by
  have hs := m.boundary_sound
  rw [hr] at hs
  obtain ⟨-, d, hd, rfl | ⟨i, hi, rfl⟩⟩ := hs
  · exact hI.drained m r hd hm
  · exact hI.divert d i hi (hI.drained m d hd hm)

theorem turn (hI : Preserved I) {m : Mission} (hm : I m) : I m.turn.2 := by
  have hs := m.boundary_sound
  rw [turn_eq]
  cases hb : m.boundary with
  | finished => exact hm
  | cancelled d => rw [hb] at hs; exact hI.unwind d (hI.drained m d hs.2 hm)
  | exhausted limit d => rw [hb] at hs; exact hI.fail d _ (hI.drained m d hs.2 hm)
  | recovering d => rw [hb] at hs; exact hI.recover d (hI.drained m d hs.2 hm)
  | ready r => exact hI.step r (hI.ready hb hm)

/-- What every turn keeps holds along the run. -/
theorem after (hI : Preserved I) {m : Mission} (hm : I m) (n : Nat) : I (m.after n) := by
  induction n with
  | zero => exact hm
  | succ n ih =>
    rw [after_succ]
    exact hI.turn ih

end Preserved

theorem preserved_sameRun (m : Mission) : Preserved m.SameRun where
  drained _ _ hd h := h.trans (.drained hd)
  unwind _ h := h.trans ⟨rfl, rfl, rfl⟩
  fail _ _ h := h.trans ⟨rfl, rfl, rfl⟩
  recover m' h := h.trans (.recover m')
  divert _ _ _ h := h.trans ⟨rfl, rfl, rfl⟩
  step m' h := h.trans m'.step_sameRun

theorem ready_sameRun {m r : Mission} (h : m.boundary = .ready r) : m.SameRun r :=
  (preserved_sameRun m).ready h (.refl m)

/-- Along a run the program, the settings and the external operations stay. -/
theorem after_sameRun (n : Nat) (m : Mission) : m.SameRun (m.after n) :=
  (preserved_sameRun m).after (.refl m) n

theorem run_of_goesOn {m m' : Mission} (h : m.turn = (.goOn, m')) (fuel : Nat) :
    m.run (fuel + 1) = m'.run fuel := by
  rw [run, h]

/-- A run gives the report of the first turn that does not go on. -/
theorem run_eq_some {fuel : Nat} {m m' : Mission} {result : Except SkillFault MissionReport}
    (h : m.run fuel = some (result, m')) :
    ∃ n, (∃ cancelled, (m.after n).turn = (if cancelled then .cancelled else .over, m') ∧
        result = m'.report cancelled) ∨
      ∃ fault, (m.after n).turn = (.aborted fault, m') ∧ result = .error fault := by
  induction fuel generalizing m with
  | zero => cases h
  | succ fuel ih =>
    unfold run at h
    split at h
    · next m₁ ht =>
      obtain ⟨n, hn⟩ := ih h
      refine ⟨n + 1, ?_⟩
      rwa [← turn_after, ht]
    · next m₁ ht =>
      cases h
      exact ⟨0, .inl ⟨false, ht, rfl⟩⟩
    · next m₁ ht =>
      cases h
      exact ⟨0, .inl ⟨true, ht, rfl⟩⟩
    · next fault m₁ ht =>
      cases h
      exact ⟨0, .inr ⟨fault, ht, rfl⟩⟩

end Mission

end Deskhand
