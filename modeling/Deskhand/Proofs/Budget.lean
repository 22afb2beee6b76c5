import Deskhand.Proofs.Ending

/-!
# A step budget bounds a run

A turn that goes on either executes an instruction, or it recovers without executing one. Recovering
closes an exception, and the flag `in_exception` with the last one, so the exceptions that wait for
recovery (`Mission.waiting`) become fewer. A turn that executes an instruction may raise further ones,
and so may a rollback that brings the flag back, but it takes a step off the budget. So a run with a
budget ends (`Mission.exists_halt`), and it has not executed more instructions than it may
(`Mission.run_bounded`).
-/

namespace Deskhand

namespace Mission

/-! ## Steps that were executed -/

/-- Whether the turn of a mission executes an instruction. -/
def executes (m : Mission) : Bool :=
  match m.boundary with
  | .ready _ => true
  | _ => false

/-- How many of the first turns of a run execute an instruction. -/
def dispatched (m : Mission) (n : Nat) : Nat := (List.range n).countP fun k => (m.after k).executes

theorem dispatched_succ (m : Mission) (n : Nat) :
    m.dispatched (n + 1) = m.dispatched n + if (m.after n).executes then 1 else 0 := by
  unfold dispatched
  rw [List.range_succ, List.countP_append, List.countP_singleton]

/-- What an instruction does is counted behind it. -/
theorem perform_steps (op : Op) (m : Mission) :
    (m.perform op).2.stepsExecuted = m.stepsExecuted := by
  have h := m.performed op
  generalize m.perform op = r at h
  cases h <;> rfl

/-- A step that does not end the run has executed one instruction. -/
theorem step_counts {m : Mission} (hlt : m.index < m.program.size) (h : m.step.1 = .goOn) :
    m.step.2.stepsExecuted = m.stepsExecuted + 1 := by
  rw [step_snd]
  unfold step at h
  generalize hr : m.tick = r at h ⊢
  have ht := m.ticked
  rw [hr] at ht
  cases ht with
  | none hi => exact absurd hlt (Nat.not_lt.2 (Array.getElem?_eq_none_iff.1 hi))
  | aborted hi hp => cases h
  | @next i index after hi hp =>
    have hsteps := m.perform_steps i.op
    rw [hp] at hsteps
    exact congrArg (· + 1) hsteps
  | failed tag hi hp => rfl

/-! ## The budget at the boundary of a turn -/

theorem outOfSteps_eq_none {m : Mission} {limit : Nat} (hlimit : m.config.maxSteps = some limit) :
    m.outOfSteps = none ↔ m.stepsExecuted < limit := by
  unfold outOfSteps
  rw [hlimit]
  simp

theorem drain_steps (m : Mission) : m.drain.2.stepsExecuted = m.stepsExecuted := by
  obtain ⟨w, b, -, h⟩ := m.drained_drain
  rw [h]
  rfl

theorem drain_config (m : Mission) : m.drain.2.config = m.config := (SameRun.drained m.drained_drain).config

/-- A turn that executes an instruction has a step left for it. -/
theorem ready_steps {m r : Mission} {limit : Nat} (hlimit : m.config.maxSteps = some limit)
    (h : m.boundary = .ready r) : r.stepsExecuted = m.stepsExecuted ∧ m.stepsExecuted < limit := by
  have hr := m.reaches
  have hsteps := m.drain_steps
  have hconfig := m.drain_config
  rw [h] at hr
  cases hr with
  | diverted hdone hdrain hout hi =>
    rw [hdrain] at hsteps hconfig
    rw [outOfSteps_eq_none (hconfig ▸ hlimit)] at hout
    exact ⟨hsteps, hsteps ▸ hout⟩
  | ready hdone hdrain hout =>
    rw [hdrain] at hsteps hconfig
    rw [outOfSteps_eq_none (hconfig ▸ hlimit)] at hout
    exact ⟨hsteps, hsteps ▸ hout⟩

/-! ## Recovering comes to an end -/

/-- How many exceptions wait for recovery; the flag counts as one more. -/
def waiting (m : Mission) : Nat :=
  if m.symbols.flag Reserved.inException && !m.handling then m.recovery.exceptions.length + 1 else 0

/-- Whatever the restored variables say, the exceptions that wait after a rollback are no more than
those that were open before: one is closed, and with the last one the flag is taken back. -/
theorem waiting_rollBack (b : Mission) : b.rollBack.2.waiting ≤ b.recovery.exceptions.length := by
  have hopen : (b.recovery.rollBack b.symbols).2.2.exceptions = b.recovery.exceptions := by
    unfold Recovery.rollBack
    split <;> rfl
  generalize hr : b.recovery.rollBack b.symbols = back at hopen
  obtain ⟨address, t, r⟩ := back
  have hsymbols : b.rollBack.2.symbols = (r.resolve t).2.1 := by
    unfold rollBack
    rw [hr]
    rfl
  have hleft : b.rollBack.2.recovery.exceptions = b.recovery.exceptions.tail := by
    unfold rollBack
    rw [hr, ← hopen]
    rfl
  unfold waiting
  rw [hsymbols, hleft, ← hopen]
  unfold Recovery.resolve
  match r.exceptions with
  | [] | [_] => simp [SymbolTable.flag_setFlag_self]
  | _ :: _ :: _ =>
    split
    · simp
    · exact Nat.zero_le _

/-- Recovering without a handler ends the mission, or fewer exceptions wait than before. -/
theorem recover_spec {d : Mission}
    (hwaits : (d.symbols.flag Reserved.inException && !d.handling) = true) :
    d.recover.stepsExecuted = d.stepsExecuted ∧
      (d.recover.isDone = true ∨ d.recover.waiting < d.waiting) := by
  have hd : d.waiting = d.recovery.exceptions.length + 1 := if_pos hwaits
  unfold recover
  rcases hretry : d.world.retry (d.recovery.config.policyFor none) with ⟨attempts | attempts, w⟩
  · simp only [hretry]
    obtain ⟨w', hw'⟩ := (d.setWorld w).arrived_eq
    have hback := (d.setWorld w).arrived.waiting_rollBack
    rw [reconnect_eq, hd]
    have hopen : (d.setWorld w).arrived.recovery.exceptions = d.recovery.exceptions := by rw [hw']; rfl
    rw [hopen] at hback
    have hsteps : (d.setWorld w).arrived.stepsExecuted = d.stepsExecuted := by rw [hw']; rfl
    exact ⟨hsteps, .inr (Nat.lt_succ_of_le hback)⟩
  · simp only [hretry]
    exact ⟨rfl, .inl (left_fail _ _).done⟩

/-! ## Runs with a budget -/

/-- The first turns of a run go on, and the one behind them does not. -/
structure HaltsAfter (m : Mission) (n : Nat) : Prop where
  goesOn : ∀ k < n, (m.after k).turn.1 = .goOn
  stops : (m.after n).turn.1 ≠ .goOn

theorem HaltsAfter.succ {m : Mission} {n : Nat} (hgo : m.turn.1 = .goOn)
    (h : m.turn.2.HaltsAfter n) : m.HaltsAfter (n + 1) where
  goesOn k hk := by
    cases k with
    | zero => exact hgo
    | succ k =>
      rw [← turn_after]
      exact h.goesOn k (Nat.lt_of_succ_lt_succ hk)
  stops := by
    rw [← turn_after]
    exact h.stops

theorem HaltsAfter.unique {m : Mission} {n k : Nat} (hn : m.HaltsAfter n) (hk : m.HaltsAfter k) :
    n = k := by
  rcases Nat.lt_trichotomy n k with hlt | heq | hlt
  · exact absurd (hk.goesOn n hlt) hn.stops
  · exact heq
  · exact absurd (hn.goesOn k hlt) hk.stops

/-- A run goes through its turns as long as they go on. -/
theorem run_add {m : Mission} {n : Nat} (hgo : ∀ k < n, (m.after k).turn.1 = .goOn) (fuel : Nat) :
    m.run (n + fuel) = (m.after n).run fuel := by
  induction n generalizing fuel with
  | zero => rw [Nat.zero_add, after_zero]
  | succ n ih =>
    have hturn : (m.after n).turn = (.goOn, (m.after n).turn.2) :=
      Prod.ext (hgo n (Nat.lt_succ_self n)) rfl
    calc m.run (n + 1 + fuel)
        = m.run (n + (fuel + 1)) := by rw [Nat.add_right_comm, Nat.add_assoc]
      _ = (m.after n).run (fuel + 1) := ih (fun k hk => hgo k (Nat.lt_succ_of_lt hk)) (fuel + 1)
      _ = (m.after (n + 1)).run fuel := by rw [run_of_goesOn hturn, after_succ]

/-- The turn that does not go on gives the result. -/
theorem HaltsAfter.run {m : Mission} {n : Nat} (h : m.HaltsAfter n) :
    ∃ result, m.run (n + 1) = some (result, m.after (n + 1)) := by
  have hstops := h.stops
  rw [run_add h.goesOn, after_succ]
  unfold Mission.run
  generalize (m.after n).turn = r at hstops ⊢
  obtain ⟨turn, final⟩ := r
  cases turn with
  | goOn => exact absurd rfl hstops
  | _ => exact ⟨_, rfl⟩

section Budget

variable {p : Program} {limit : Nat} {m : Mission}

/-- What a turn that goes on spends: a step of the budget, or an exception that waits. -/
theorem turn_spends (hp : p.Linked) (hm : m.program = p) (hlimit : m.config.maxSteps = some limit)
    (hgo : m.turn.1 = .goOn) :
    m.executes = true ∧ m.stepsExecuted < limit ∧ m.turn.2.stepsExecuted = m.stepsExecuted + 1 ∨
    m.executes = false ∧ m.turn.2.stepsExecuted = m.stepsExecuted ∧
      (m.turn.2.isDone = true ∨ m.turn.2.waiting < m.waiting) := by
  have hreaches := m.reaches
  unfold executes
  rw [turn_eq] at hgo ⊢
  cases hb : m.boundary with
  | finished | cancelled | exhausted =>
    rw [hb] at hgo
    cases hgo
  | recovering d =>
    rw [hb] at hreaches
    cases hreaches with
    | recovering hdone hdrain hout hwaits =>
      have hd := m.drained_drain
      rw [hdrain] at hd
      obtain ⟨w, b, -, rfl⟩ := hd
      exact .inr ⟨rfl, recover_spec hwaits⟩
  | ready r =>
    obtain ⟨hsteps, hlt⟩ := ready_steps hlimit hb
    have hindex : r.index < r.program.size := by
      rw [(ready_sameRun hb).program, hm]
      exact ready_lt hp hm hb
    rw [hb] at hgo
    have hcounts := step_counts hindex hgo
    rw [hsteps] at hcounts
    exact .inl ⟨rfl, hlt, hcounts⟩

/-- A run with a budget halts: turns that execute instructions use the budget up, and between two of
them fewer and fewer exceptions wait. -/
theorem exists_halt (hp : p.Linked) (m : Mission) (hm : m.program = p)
    (hlimit : m.config.maxSteps = some limit) : ∃ n, m.HaltsAfter n := by
  by_cases hgo : m.turn.1 = .goOn
  · have hsame := m.after_sameRun 1
    have hprogram : m.turn.2.program = p := hsame.program.trans hm
    have hconfig : m.turn.2.config.maxSteps = some limit := by
      rw [← hlimit]
      exact congrArg RunConfig.maxSteps hsame.config
    rcases turn_spends hp hm hlimit hgo with ⟨-, hlt, hsteps⟩ | ⟨-, hsteps, hdone | hfewer⟩
    · obtain ⟨n, hn⟩ := exists_halt hp m.turn.2 hprogram hconfig
      exact ⟨n + 1, hn.succ hgo⟩
    · have hstops : m.turn.2.HaltsAfter 0 := ⟨nofun, by rw [after_zero, turn_of_isDone hdone]; nofun⟩
      exact ⟨1, hstops.succ hgo⟩
    · obtain ⟨n, hn⟩ := exists_halt hp m.turn.2 hprogram hconfig
      exact ⟨n + 1, hn.succ hgo⟩
  · exact ⟨0, nofun, hgo⟩
termination_by (limit - m.stepsExecuted, m.waiting)
decreasing_by
  · exact Prod.Lex.left _ _ (by omega)
  · rw [hsteps]
    exact Prod.Lex.right _ hfewer

/-- As long as a run goes on it counts the instructions that it executes, and they are within the
budget. -/
theorem dispatched_le (hp : p.Linked) (hm : m.Begins p) (hlimit : m.config.maxSteps = some limit)
    {n : Nat} (hgo : ∀ k < n, (m.after k).turn.1 = .goOn) :
    (m.after n).stepsExecuted = m.dispatched n ∧ m.dispatched n ≤ limit := by
  induction n with
  | zero =>
    obtain ⟨world, config, t, -, rfl⟩ := hm.eq_initial
    exact ⟨rfl, Nat.zero_le _⟩
  | succ n ih =>
    obtain ⟨hsteps, hle⟩ := ih fun k hk => hgo k (Nat.lt_succ_of_lt hk)
    have hsame := m.after_sameRun n
    have hspends := turn_spends hp (hsame.program.trans hm.program)
      ((congrArg RunConfig.maxSteps hsame.config).trans hlimit) (hgo n (Nat.lt_succ_self n))
    rw [after_succ, dispatched_succ]
    rcases hspends with ⟨hex, hlt, hturn⟩ | ⟨hex, hturn, -⟩
    · rw [hex, hturn, if_pos rfl]
      omega
    · rw [hex, hturn, if_neg Bool.false_ne_true]
      omega

/-- A mission that has steps neither left nor ended nor cancelled is given up for want of steps. -/
theorem boundary_exhausted (hlimit : m.config.maxSteps = some limit) (hsteps : m.stepsExecuted = limit)
    (hdone : m.isDone = false) (hdrain : m.drain.1 = false) :
    m.boundary = .exhausted limit m.drain.2 := by
  have hout : m.drain.2.outOfSteps = some limit := by
    unfold outOfSteps
    rw [drain_config, hlimit, drain_steps, hsteps]
    simp
  unfold boundary
  rw [hdone]
  rcases hd : m.drain with ⟨_ | _, d⟩
  · rw [hd] at hout
    simp only [hout]
    rfl
  · rw [hd] at hdrain
    cases hdrain

theorem report_fail (reason : String) (d : Mission) :
    (d.fail reason).report false =
      .ok ⟨d.program.name, .failed, d.stepsExecuted, some reason⟩ := by
  have hfailed : (d.fail reason).symbols.flag Reserved.missionFailed = true := by
    change (((d.symbols.setFlag Reserved.missionFailed true).setFlag Reserved.inException
      false).flag Reserved.missionFailed) = true
    rw [SymbolTable.flag_setFlag_of_ne _ (by decide), SymbolTable.flag_setFlag_self]
  unfold report
  rw [hfailed]
  rfl

/-- A run that has used its steps up fails for this reason. -/
theorem run_exhausted {n : Nat} {d : Mission} (hgo : ∀ k < n, (m.after k).turn.1 = .goOn)
    (hb : (m.after n).boundary = .exhausted limit d) :
    m.HaltsAfter n ∧ m.run (n + 1) = some
      (.ok ⟨d.program.name, .failed, d.stepsExecuted, some s!"step budget of {limit} exhausted"⟩,
        d.fail s!"step budget of {limit} exhausted") := by
  have hturn : (m.after n).turn = (.over, d.fail s!"step budget of {limit} exhausted") := by
    rw [turn_eq, hb]
    rfl
  refine ⟨⟨hgo, by rw [hturn]; nofun⟩, ?_⟩
  rw [run_add hgo, ← report_fail]
  unfold Mission.run
  rw [hturn]

end Budget

/-- A document whose only step jumps to itself. -/
def loopingDocument : SkillDocument where
  name := "main"
  header := .empty
  steps := [⟨"step 1", 1, "Goto", [("goto", .text "step 1")]⟩]

/-- The program of `loopingDocument`. -/
def loopingProgram : Program where
  name := "main"
  skid := ""
  instructions := #[⟨⟨"main", 1, false⟩, .goto 0 none⟩, ⟨⟨"main", 1, true⟩, .finish⟩]
  functions := []
  skills := [("main", 0)]
  handlers := []
  documents := [⟨"main", 0, 2⟩]

theorem resolve_loopingDocument : resolve loopingDocument .empty = .ok loopingProgram :=
  resolve_of_sorted rfl (by decide) (by decide) (by decide)

/-- The mission of `loopingProgram` that may execute three steps. -/
def loopingMission : Mission :=
  initial loopingProgram (.plain 0 .empty) { RunConfig.usual with maxSteps := some 3 }

theorem loopingMission_begins : loopingMission.Begins loopingProgram :=
  ⟨.plain 0 .empty, _, loopingMission, loopingMission.symbols, rfl, rfl⟩

end Mission

end Deskhand
