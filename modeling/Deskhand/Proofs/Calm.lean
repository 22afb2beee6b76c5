import Deskhand.Proofs.Reading

/-!
# Calm runs

A run that nothing disturbs (`Mission.Calm`) executes one instruction in every turn. What it does is a
step of the reading: a test, an action or the passing of a mark leads from one place to another
(`Mission.goes_test`, `Mission.goes_act`, `Mission.goes_jump`).
-/

namespace Deskhand

open Relation (ReflTransGen)

namespace Mission

/-! ## Runs that nothing disturbs -/

/-- The run goes on for so many turns. -/
def GoesOn (n : Nat) (m : Mission) : Prop := ∀ k < n, (m.after k).turn.1 = .goOn

/-- Along the run no exception is open and nothing is cancelled, and there is no limit of steps. -/
structure Calm (m : Mission) : Prop where
  unlimited : m.config.maxSteps = none
  uncancelled : ∀ n, m.GoesOn n → (m.after n).isDone = false → (m.after n).drain.1 = false
  quiet : ∀ n, m.GoesOn n → (m.after n).symbols.flag Reserved.inException = false

/-- A turn leads on to another state. -/
def Goes (m m' : Mission) : Prop := m.turn = (.goOn, m')

/-- The end of the program is executed after so many turns. -/
def FinishesIn : Nat → Mission → Mission → Prop
  | 0, m, m' => ∃ r, m.boundary = .ready r ∧ r.program.op? r.index = some .finish ∧ m' = m.turn.2
  | n + 1, m, m' => ∃ m₁, m.Goes m₁ ∧ m₁.FinishesIn n m'

/-- A mission comes to the end of its program. -/
def Finishes (m m' : Mission) : Prop := ∃ n, m.FinishesIn n m'

theorem Goes.program {m m' : Mission} (h : m.Goes m') : m'.program = m.program := by
  have hsame := m.after_sameRun 1
  rw [after_succ, after_zero, h] at hsame
  exact hsame.program

theorem Calm.goes {m m' : Mission} (hm : m.Calm) (h : m.Goes m') : m'.Calm := by
  have hafter : ∀ n, m'.after n = m.after (n + 1) := fun n => by rw [← turn_after, h]
  have hgoes : ∀ n, m'.GoesOn n → m.GoesOn (n + 1) := by
    intro n hn k hk
    cases k with
    | zero => exact congrArg Prod.fst h
    | succ k =>
      rw [← hafter]
      exact hn k (Nat.lt_of_succ_lt_succ hk)
  have hsame := m.after_sameRun 1
  rw [after_succ, after_zero, h] at hsame
  refine ⟨by rw [hsame.config]; exact hm.unlimited, fun n hn => ?_, fun n hn => ?_⟩
  · rw [hafter]
    exact hm.uncancelled (n + 1) (hgoes n hn)
  · rw [hafter]
    exact hm.quiet (n + 1) (hgoes n hn)

/-- Nothing but the next instruction is due in a turn of such a run. -/
theorem Calm.boundary {m : Mission} (hm : m.Calm) (hdone : m.isDone = false) :
    ∃ d, m.drain = (false, d) ∧ m.boundary = .ready d := by
  have hzero : m.GoesOn 0 := fun k hk => absurd hk (Nat.not_lt_zero k)
  have hcancelled := hm.uncancelled 0 hzero hdone
  have hquiet := hm.quiet 0 hzero
  have hd := m.drained_drain
  rw [after_zero] at hcancelled hquiet
  rcases hdrain : m.drain with ⟨b, d⟩
  rw [hdrain] at hcancelled hd
  cases hcancelled
  obtain ⟨w, p, -, rfl⟩ := hd
  refine ⟨_, rfl, ?_⟩
  have hlimit : outOfSteps { m.setWorld w with paused := p } = none := by
    change m.config.maxSteps.filter _ = none
    rw [hm.unlimited]
    rfl
  have hflag : SymbolTable.flag Reserved.inException
      (symbols { m.setWorld w with paused := p }) = false := hquiet
  unfold Mission.boundary
  rw [hdone, hdrain]
  simp only [Bool.false_eq_true, if_false, hlimit, hflag, Bool.false_and]

section Arrive

variable {place : Nat} {m m' d : Mission}

theorem goTo_isDone (hplace : place < m.program.size) :
    (m.goTo place).isDone = decide (Program.sentinel ≤ place) := by
  change (decide (Program.sentinel ≤ place) || decide (m.program.size ≤ place)) = _
  rw [decide_eq_false (Nat.not_le.2 hplace), Bool.or_false]

/-- Who arrives has taken the commands and stands at the place. -/
theorem drained_of_arrive (h : m.arrive? place = some d) : (m.goTo place).Drained d := by
  have hd := (m.goTo place).drained_drain
  unfold arrive? at h
  split at h
  · cases h
  · split at h
    · cases h
    · next hdrain =>
      cases h
      rw [hdrain] at hd
      exact hd

theorem index_of_arrive (h : m.arrive? place = some d) : d.index = place := by
  obtain ⟨w, p, -, rfl⟩ := drained_of_arrive h
  rfl

theorem program_of_arrive (h : m.arrive? place = some d) : d.program = m.program := by
  obtain ⟨w, p, -, rfl⟩ := drained_of_arrive h
  rfl

/-- A turn at a place is to arrive there and to execute its instruction. -/
theorem boundary_goTo (hm : (m.goTo place).Calm) (hplace : place < m.program.size) {r : Mission} :
    (m.goTo place).boundary = .ready r ↔ m.arrive? place = some r := by
  have hdone := goTo_isDone hplace
  unfold arrive?
  by_cases hs : Program.sentinel ≤ place
  · rw [decide_eq_true hs] at hdone
    rw [if_pos hs]
    unfold Mission.boundary
    rw [hdone]
    exact ⟨nofun, nofun⟩
  · rw [decide_eq_false hs] at hdone
    obtain ⟨d, hdrain, hb⟩ := hm.boundary hdone
    rw [if_neg hs, hb, hdrain]
    exact ⟨fun h => by cases h; rfl, fun h => by cases h; rfl⟩

theorem goes_goTo (hm : (m.goTo place).Calm) (hplace : place < m.program.size) :
    (m.goTo place).Goes m' ↔ ∃ d, m.arrive? place = some d ∧ d.step = (.goOn, m') := by
  unfold Goes
  rw [turn_eq]
  constructor
  · intro h
    by_cases hdone : (m.goTo place).isDone = true
    · unfold Mission.boundary at h
      rw [hdone] at h
      cases h
    · obtain ⟨d, -, hb⟩ := hm.boundary (Bool.eq_false_iff.2 hdone)
      rw [hb] at h
      exact ⟨d, (boundary_goTo hm hplace).1 hb, h⟩
  · rintro ⟨d, hd, hstep⟩
    rw [(boundary_goTo hm hplace).2 hd]
    exact hstep

end Arrive

/-! ## The steps of such a run -/

section Step

variable {d e after : Mission} {op : Op}

theorem tick_of_op? {index : Nat} (hop : d.program.op? d.index = some op)
    (hp : d.perform op = (.next index, after)) :
    d.tick = (.ok .completed, after.counted.goTo index) := by
  obtain ⟨i, hi, rfl⟩ := Option.map_eq_some_iff.1 hop
  exact tick_next hi hp

theorem tick_failed {failure : Failure} (hop : d.program.op? d.index = some op)
    (hp : d.perform op = (.failed failure, after)) (hindex : after.index = d.index)
    (hcount : after.stepsExecuted = d.stepsExecuted) :
    d.tick = (.ok (.failed (failureTag op.kind d.index failure.message)),
      (after.noted op.kind failure).goTo (fallback d.index op)) := by
  obtain ⟨i, hi, rfl⟩ := Option.map_eq_some_iff.1 hop
  unfold tick
  rw [hi]
  dsimp only
  rw [hp]
  unfold noted counted goTo
  rw [hindex, hcount]

theorem step_of_tick {status : StepStatus} (h : d.tick = (.ok status, after)) :
    d.step = (.goOn, after) := by
  unfold step
  rw [h]

theorem step_next {index : Nat} (hop : d.program.op? d.index = some op)
    (hp : d.perform op = (.next index, after)) :
    d.step = (.goOn, after.counted.goTo index) := step_of_tick (tick_of_op? hop hp)

theorem step_aborted_of {fault : SkillFault} (hop : d.program.op? d.index = some op)
    (hp : d.perform op = (.aborted fault, after)) : d.step = (.aborted fault, after) := by
  obtain ⟨i, hi, rfl⟩ := Option.map_eq_some_iff.1 hop
  unfold step tick
  rw [hi]
  dsimp only
  rw [hp]

variable {α : Type} {part : StepM α} {k : α → Nat}

theorem follow_of_ok {a : α} (h : d.runStep part = (.ok a, e)) :
    d.follow (do return k (← part)) = (.next (k a), e) := by
  unfold runStep at h
  unfold follow runStep
  rw [StepM.result_bind]
  rcases hr : part.result ⟨d.config, d.index⟩ d.work with ⟨_ | _, work⟩
  · rw [hr] at h
    cases h
  · rw [hr] at h
    cases h
    rfl

theorem follow_of_error {failure : Failure} (h : d.runStep part = (.error failure, e)) :
    d.follow (do return k (← part)) = (.failed failure, e) := by
  unfold runStep at h
  unfold follow runStep
  rw [StepM.result_bind]
  rcases hr : part.result ⟨d.config, d.index⟩ d.work with ⟨_ | _, work⟩
  · rw [hr] at h
    cases h
    rfl
  · rw [hr] at h
    cases h

theorem runStep_snd (part : StepM α) (d : Mission) :
    ∃ work, (d.runStep part).2 = { d with work } := ⟨_, rfl⟩

/-- An instruction that follows a part of a step goes on, whether that fails or not. -/
theorem tick_follow (hop : d.program.op? d.index = some op)
    (hp : d.perform op = d.follow (do return k (← part))) :
    (∀ a e, d.runStep part = (.ok a, e) → d.tick = (.ok .completed, e.counted.goTo (k a))) ∧
    ∀ failure e, d.runStep part = (.error failure, e) →
      d.tick = (.ok (.failed (failureTag op.kind d.index failure.message)),
        (e.noted op.kind failure).goTo (fallback d.index op)) := by
  obtain ⟨work, hwork⟩ := runStep_snd part d
  refine ⟨fun a e h => ?_, fun failure e h => ?_⟩
  · exact tick_of_op? hop (hp.trans (follow_of_ok h))
  · rw [h] at hwork
    cases hwork
    exact tick_failed hop (hp.trans (follow_of_error h)) rfl rfl

theorem step_tested {test : StepM Bool} {yes no : Nat} (hop : d.program.op? d.index = some op)
    (hp : d.perform op = d.follow (do return if ← test then yes else no))
    (hfallback : fallback d.index op = no) :
    d.step = (.goOn, (d.tested op.kind test).2.goTo
      (if (d.tested op.kind test).1 then yes else no)) := by
  obtain ⟨hok, herror⟩ := tick_follow hop hp
  unfold tested
  rcases hr : d.runStep test with ⟨failure | holds, e⟩
  · rw [step_of_tick (herror failure e hr), hfallback]
    rfl
  · exact step_of_tick (hok holds e hr)

section Acted

variable {kind : String} {args : Entries Value} {act : StepM Unit}

theorem perform_action (hact : action? d.world.external kind args = some act) :
    d.perform (.action kind args) = d.follow (do act; return d.index + 1) := by
  change d.doAction kind args = _
  unfold doAction
  rw [hact]

theorem step_acted (hop : d.program.op? d.index = some (.action kind args))
    (hact : action? d.world.external kind args = some act) :
    d.step = (.goOn, (d.acted kind act).goTo (d.index + 1)) := by
  obtain ⟨hok, herror⟩ := tick_follow hop (perform_action hact)
  unfold acted
  rcases hr : d.runStep act with ⟨failure | _, e⟩
  · exact step_of_tick (herror failure e hr)
  · exact step_of_tick (hok _ e hr)

end Acted

end Step

section Goes

variable {place : Nat} {m m' : Mission} {op : Op}

/-- Who arrives at an instruction has it ahead. -/
theorem op?_of_arrive {d : Mission} (hop : m.program.op? place = some op)
    (hd : m.arrive? place = some d) : d.program.op? d.index = some op := by
  rw [program_of_arrive hd, index_of_arrive hd]
  exact hop

/-- A test leads to one of two places. -/
theorem goes_test {kind : String} {test : StepM Bool} {yes no : Nat} (hm : (m.goTo place).Calm)
    (hop : m.program.op? place = some op)
    (hp : ∀ d : Mission, d.index = place →
      d.perform op = d.follow (do return if ← test then yes else no))
    (hfallback : fallback place op = no) (hkind : op.kind = kind) :
    (m.goTo place).Goes m' ↔ ∃ holds m₁, m.test? place kind test = some (holds, m₁) ∧
      m' = m₁.goTo (if holds then yes else no) := by
  subst hkind
  rw [goes_goTo hm (Program.lt_size_of_op? hop)]
  have hstep : ∀ d, m.arrive? place = some d → d.step = (.goOn, (d.tested op.kind test).2.goTo
      (if (d.tested op.kind test).1 then yes else no)) := fun d hd =>
    step_tested (op?_of_arrive hop hd) (hp d (index_of_arrive hd))
      (index_of_arrive hd ▸ hfallback)
  constructor
  · rintro ⟨d, hd, h⟩
    rw [hstep d hd] at h
    cases h
    exact ⟨_, _, Option.map_eq_some_iff.2 ⟨d, hd, rfl⟩, rfl⟩
  · rintro ⟨holds, m₁, h, rfl⟩
    obtain ⟨d, hd, ht⟩ := Option.map_eq_some_iff.1 h
    exact ⟨d, hd, by rw [hstep d hd, ht]⟩

/-- An action leads to the next place. -/
theorem goes_act {kind : String} {args : Entries Value} (hm : (m.goTo place).Calm)
    (hop : m.program.op? place = some (.action kind args)) :
    (m.goTo place).Goes m' ↔ ∃ m₁, m.act? place kind args = some m₁ ∧ m' = m₁.goTo (place + 1) := by
  rw [goes_goTo hm (Program.lt_size_of_op? hop)]
  constructor
  · rintro ⟨d, hd, h⟩
    have hop' := op?_of_arrive hop hd
    cases hact : action? d.world.external kind args with
    | none =>
      have hp : d.perform (.action kind args) =
          (.aborted (.unknownStepType kind (toString d.index)), d) := by
        change d.doAction kind args = _
        unfold doAction
        rw [hact]
      rw [step_aborted_of hop' hp] at h
      cases h
    | some act =>
      rw [step_acted hop' hact, index_of_arrive hd] at h
      cases h
      refine ⟨d.acted kind act, ?_, rfl⟩
      unfold act?
      rw [hd, Option.bind_some, hact]
      rfl
  · rintro ⟨m₁, h, rfl⟩
    obtain ⟨d, hd, h⟩ := Option.bind_eq_some_iff.1 h
    obtain ⟨act, hact, rfl⟩ := Option.map_eq_some_iff.1 h
    refine ⟨d, hd, ?_⟩
    rw [step_acted (op?_of_arrive hop hd) hact, index_of_arrive hd]

/-- A mark leads to where its jump goes, and counts up. -/
theorem goes_jump {target : Nat} {counter : Option String} (hm : (m.goTo place).Calm)
    (hop : m.program.op? place = some (.goto target counter)) :
    (m.goTo place).Goes m' ↔
      ∃ m₁, m.pass? place = some m₁ ∧ m' = (m₁.countUp counter).goTo target := by
  rw [goes_goTo hm (Program.lt_size_of_op? hop)]
  have hstep : ∀ d, m.arrive? place = some d →
      d.step = (.goOn, (d.counted.countUp counter).goTo target) := by
    intro d hd
    cases counter <;> exact step_next (op?_of_arrive hop hd) rfl
  constructor
  · rintro ⟨d, hd, h⟩
    rw [hstep d hd] at h
    cases h
    exact ⟨_, Option.map_eq_some_iff.2 ⟨d, hd, rfl⟩, rfl⟩
  · rintro ⟨m₁, h, rfl⟩
    obtain ⟨d, hd, rfl⟩ := Option.map_eq_some_iff.1 h
    exact ⟨d, hd, hstep d hd⟩

/-- Control passes from place to place in one program. -/
theorem program_of_passes {start stop : Nat} (h : ReflTransGen Goes (m.goTo start) (m'.goTo stop)) :
    m'.program = m.program := by
  have hkeep : ∀ e, ReflTransGen Goes (m.goTo start) e → e.program = m.program := by
    intro e h
    induction h with
    | refl => rfl
    | tail _ hg ih => exact hg.program.trans ih
  exact hkeep (m'.goTo stop) h

theorem Calm.passes (hm : m.Calm) (h : ReflTransGen Goes m m') : m'.Calm := by
  induction h with
  | refl => exact hm
  | tail _ hg ih => exact ih.goes hg

end Goes

end Mission

end Deskhand
