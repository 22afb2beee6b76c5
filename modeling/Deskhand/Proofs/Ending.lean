import Deskhand.Proofs.Alignment
import Deskhand.Proofs.Rollback

/-!
# How runs end

A run is given up when it is cancelled, when its steps are used up, when the site stays unreachable
or when the block of a handler ends after the mission has failed (`Mission.GivesUp`). Then nothing is
left under way (`Mission.Settled`). Otherwise the program itself ends the run (`Mission.Leaves`), and
everything stays as it is: that of a mission which completes the stacks are empty is checked, but a
jump out of the block of a handler leaves its exception open (`Mission.not_settled_leaping`).
-/

namespace Deskhand

namespace Mission

open StepM (blindSearch)

/-- No call is under way, no exception is open and no handler is being run. -/
structure Settled (m : Mission) : Prop where
  calls : m.calls = .empty
  skills : m.skills = .empty
  exceptions : m.recovery.exceptions = []
  closed : m.symbols.flag Reserved.inException = false
  handling : m.handling = false

/-- The run is given up in a turn of `m`. -/
inductive GivesUp (m : Mission) : Mission → Prop
  | cancelled {d : Mission} (hb : m.boundary = .cancelled d) : GivesUp m d.unwind
  | exhausted {limit : Nat} {d : Mission} (hb : m.boundary = .exhausted limit d) :
    GivesUp m (d.fail s!"step budget of {limit} exhausted")
  | unreached {d : Mission} {attempts : Nat} {w : World} (hb : m.boundary = .recovering d)
    (hretry : d.world.retry (d.recovery.config.policyFor none) = (.exhausted attempts, w)) :
    GivesUp m ((d.setWorld w).fail (unreachable (d.recovery.config.policyFor none).site attempts))
  | failed {r : Mission} {i : Instruction} (hb : m.boundary = .ready r)
    (hi : r.program.instructions[r.index]? = some i) (hf : r.Fails i.op) :
    GivesUp m { r.unwind with stepsExecuted := r.stepsExecuted + 1 }

/-- The program ends the run in a turn of `m`. -/
inductive Leaves (m : Mission) : Mission → Prop
  | quits {r : Mission} {i : Instruction} (hb : m.boundary = .ready r)
    (hi : r.program.instructions[r.index]? = some i) (hq : r.Quits i.op) :
    Leaves m { r with index := Program.sentinel, stepsExecuted := r.stepsExecuted + 1 }

theorem settled_unwind (m : Mission) : m.unwind.Settled where
  calls := rfl
  skills := rfl
  exceptions := rfl
  closed := m.symbols.flag_setFlag_self false
  handling := rfl

theorem GivesUp.settled {m final : Mission} (h : m.GivesUp final) : final.Settled := by
  cases h with
  | cancelled => exact settled_unwind _
  | exhausted => exact settled_unwind _
  | unreached => exact settled_unwind _
  | @failed r i hb hi hf =>
    have h := r.settled_unwind
    exact ⟨h.calls, h.skills, h.exceptions, h.closed, h.handling⟩

/-- A step is not taken while an exception waits for its handler. -/
theorem closed_of_ready {m r : Mission} (h : m.boundary = .ready r) :
    r.handling = true ∨ r.symbols.flag Reserved.inException = false := by
  have hr := m.reaches
  rw [h] at hr
  cases hr with
  | diverted => exact .inl rfl
  | ready hdone hdrain hout hcalm =>
    cases hhandling : r.handling with
    | true => exact .inl rfl
    | false => exact .inr (by simpa [hhandling] using hcalm)

theorem Leaves.closed {m final : Mission} (h : m.Leaves final) :
    final.handling = true ∨ final.symbols.flag Reserved.inException = false := by
  obtain ⟨hb, -, -⟩ := h
  have hclosed := closed_of_ready hb
  exact hclosed

/-! ## The turn in which a run ends -/

theorem not_isDone_of_lt {m : Mission} (h : m.index < m.program.size)
    (hsize : m.program.size ≤ Program.sentinel) : m.isDone = false := by
  simp only [isDone, Bool.or_eq_false_iff, decide_eq_false_iff_not]
  omega

theorem lt_size_of_not_isDone {m : Mission} (h : m.isDone = false) : m.index < m.program.size := by
  simp only [isDone, Bool.or_eq_false_iff, decide_eq_false_iff_not] at h
  omega

/-- Whoever goes back to a rollback point does not come to the end. -/
theorem reconnect_lt {size : Nat} {m : Mission} (hm : m.Within size) (hindex : m.index < size) :
    m.reconnect.index < size := by
  obtain ⟨w, hw⟩ := m.arrived_eq
  have hwithin : m.arrived.Within size := by
    rw [hw]
    exact ⟨hm.calls, hm.recovery⟩
  rw [reconnect_eq]
  change m.arrived.rollBack.1.getD m.arrived.index < size
  cases hi : m.arrived.rollBack.1 with
  | none =>
    rw [hw]
    exact hindex
  | some i => exact (rollBack_within hwithin).2 i hi

section

variable {p : Program} {m : Mission}

/-- The step that comes next is an instruction. -/
theorem ready_lt (hp : p.Linked) (hm : m.program = p) {r : Mission} (hb : m.boundary = .ready r) :
    r.index < p.size := by
  have hs := m.boundary_sound
  rw [hb] at hs
  obtain ⟨hdone, d, ⟨w, b, -, rfl⟩, rfl | ⟨i, hi, rfl⟩⟩ := hs
  · rw [← hm]
    exact lt_size_of_not_isDone hdone
  · change m.program.handlerFor? m.index = some i at hi
    rw [hm] at hi
    exact handlerFor_lt hp hi

theorem step_over (hp : p.Linked) (hsize : p.size ≤ Program.sentinel) {r : Mission}
    (hr : r.Placed p) (hlt : r.index < p.size) (hover : r.step.2.isDone = true) :
    ∃ i, r.program.instructions[r.index]? = some i ∧
      (r.Quits i.op ∧ r.step.2 =
        { r with index := Program.sentinel, stepsExecuted := r.stepsExecuted + 1 } ∨
      r.Fails i.op ∧ r.step.2 = { r.unwind with stepsExecuted := r.stepsExecuted + 1 }) := by
  have hprogram := r.step_sameRun.program.trans hr.program
  have hgoesOn : ¬ r.step.2.index < p.size := by
    intro h
    rw [← hprogram] at h hsize
    rw [not_isDone_of_lt h hsize] at hover
    cases hover
  rw [step_snd] at hgoesOn ⊢
  generalize htick : r.tick = t at hgoesOn ⊢
  have ht := r.ticked
  rw [htick] at ht
  have hop : ∀ i : Instruction, r.program.instructions[r.index]? = some i →
      p.op? r.index = some i.op := by
    intro i hi
    rw [← hr.program]
    exact congrArg (Option.map Instruction.op) hi
  cases ht with
  | none hi =>
    rw [← hr.program] at hlt
    exact absurd hlt (Nat.not_lt.2 (Array.getElem?_eq_none_iff.1 hi))
  | @aborted i fault after hi hperform =>
    have hl := perform_leads hp (hop i hi) hr.within
    rw [hperform] at hl
    exact absurd (hl.stays fault rfl) hgoesOn
  | @failed i failure after tag hi hperform =>
    exact absurd (fallback_lt hp (hop i hi) (not_ends_of_failed hperform)) hgoesOn
  | @next i index after hi hperform =>
    have hl := perform_leads hp (hop i hi) hr.within
    rw [hperform] at hl
    refine ⟨i, hi, ?_⟩
    rcases hl.next index rfl with hindex | ⟨rfl, ⟨hq, rfl⟩ | ⟨hf, rfl⟩⟩
    · exact absurd hindex hgoesOn
    · exact .inl ⟨hq, rfl⟩
    · exact .inr ⟨hf, rfl⟩

/-- A turn comes to the end of a program only if the run is given up or the program ends it. -/
theorem turn_over (hp : p.Linked) (hsize : p.size ≤ Program.sentinel) (hm : m.Placed p)
    (hdone : m.isDone = false) (hover : m.turn.2.isDone = true) :
    m.GivesUp m.turn.2 ∨ m.Leaves m.turn.2 := by
  have hs := m.boundary_sound
  rw [turn_eq] at hover ⊢
  cases hb : m.boundary with
  | finished =>
    rw [hb] at hs
    exact absurd hs (by simp [Boundary.Sound, hdone])
  | cancelled d => exact .inl (.cancelled hb)
  | exhausted limit d => exact .inl (.exhausted hb)
  | recovering d =>
    rw [hb] at hs hover
    have hd := (preserved_placed hp).drained m d hs.2 hm
    have hlt : d.index < p.size := by
      obtain ⟨-, w, b, -, rfl⟩ := hs
      rw [← hm.program]
      exact lt_size_of_not_isDone hdone
    change d.recover.isDone = true at hover
    change m.GivesUp d.recover ∨ m.Leaves d.recover
    have hprogram := (placed_recover hd).program
    unfold recover at hover hprogram ⊢
    rcases hretry : d.world.retry (d.recovery.config.policyFor none) with ⟨attempts | attempts, w⟩
    · -- the mission goes on at an instruction
      simp only [hretry] at hover hprogram
      have hback : (d.setWorld w).reconnect.index < p.size :=
        reconnect_lt ⟨hd.within.calls, hd.within.recovery⟩ hlt
      rw [← hprogram] at hback hsize
      rw [not_isDone_of_lt hback hsize] at hover
      cases hover
    · simp only [hretry]
      exact .inl (.unreached hb hretry)
  | ready r =>
    rw [hb] at hover
    have hr := (preserved_placed hp).ready hb hm
    obtain ⟨i, hi, ⟨hq, hstep⟩ | ⟨hf, hstep⟩⟩ :=
      step_over hp hsize hr (ready_lt hp hm.program hb) hover
    · refine .inr ?_
      change m.Leaves r.step.2
      rw [hstep]
      exact .quits hb hi hq
    · refine .inl ?_
      change m.GivesUp r.step.2
      rw [hstep]
      exact .failed hb hi hf

/-- A run that is over came to the end in some turn. -/
theorem exists_turn_over {n : Nat} (hbegin : m.isDone = false) (hdone : (m.after n).isDone = true) :
    ∃ k, (m.after k).isDone = false ∧ (m.after k).turn.2 = m.after n := by
  induction n with
  | zero =>
    rw [after_zero, hbegin] at hdone
    cases hdone
  | succ n ih =>
    cases hn : (m.after n).isDone with
    | false => exact ⟨n, hn, (after_succ n m).symm⟩
    | true =>
      obtain ⟨k, hk, hturn⟩ := ih hn
      refine ⟨k, hk, ?_⟩
      rw [after_succ, turn_of_isDone hn, hturn]

theorem step_goesOn (m : Mission) : m.step.1 = .goOn ∨ ∃ fault, m.step.1 = .aborted fault := by
  unfold step
  split
  · next fault _ _ => exact .inr ⟨fault, rfl⟩
  · exact .inl rfl

/-- Who is in charge when a run ends. -/
theorem run_over (hp : p.Linked) (hsize : p.size ≤ Program.sentinel) (hm : m.Begins p)
    (hbegin : 0 < p.size) {n : Nat} {final : Mission} {cancelled : Bool}
    (hturn : (m.after n).turn = (if cancelled then .cancelled else .over, final)) :
    ∃ k, (m.after k).GivesUp final ∨ (m.after k).Leaves final := by
  have hplaced := (preserved_placed hp).after (placed_begins hbegin hm)
  have hstart : m.isDone = false := by
    obtain ⟨world, config, t, -, rfl⟩ := hm.eq_initial
    exact not_isDone_of_lt hbegin hsize
  cases hb : (m.after n).boundary with
  | finished =>
    have hs := (m.after n).boundary_sound
    rw [hb] at hs
    rw [turn_of_isDone hs] at hturn
    obtain ⟨k, hk, hlast⟩ := exists_turn_over hstart hs
    have hfinal : m.after n = final := congrArg Prod.snd hturn
    rw [← hfinal, ← hlast]
    refine ⟨k, turn_over hp hsize (hplaced k) hk ?_⟩
    rw [hlast]
    exact hs
  | cancelled d =>
    rw [turn_eq, hb] at hturn
    have hfinal : d.unwind = final := congrArg Prod.snd hturn
    rw [← hfinal]
    exact ⟨n, .inl (.cancelled hb)⟩
  | exhausted limit d =>
    rw [turn_eq, hb] at hturn
    have hfinal : d.fail s!"step budget of {limit} exhausted" = final := congrArg Prod.snd hturn
    rw [← hfinal]
    exact ⟨n, .inl (.exhausted hb)⟩
  | recovering d =>
    rw [turn_eq, hb] at hturn
    cases cancelled <;> cases congrArg Prod.fst hturn
  | ready r =>
    rw [turn_of_ready hb] at hturn
    have hstep := congrArg Prod.fst hturn
    rcases r.step_goesOn with h | ⟨fault, h⟩
    · rw [h] at hstep
      cases cancelled <;> cases hstep
    · rw [h] at hstep
      cases cancelled <;> cases hstep

end

/-- A report that a mission was cancelled is made in no other case. -/
theorem report_cancelled {m : Mission} {cancelled : Bool} {report : MissionReport}
    (h : m.report cancelled = .ok report) (hstatus : report.status = .cancelled) :
    cancelled = true := by
  unfold Mission.report at h
  dsimp only at h
  generalize hs : (if cancelled then MissionStatus.cancelled
    else if m.symbols.flag Reserved.missionFailed then .failed else .completed) = status at h
  split at h
  · cases h
  · cases h
    change status = _ at hstatus
    rw [hstatus] at hs
    cases cancelled with
    | true => rfl
    | false =>
      rw [if_neg Bool.false_ne_true] at hs
      split at hs <;> cases hs

/-- How a run that gives a report ends. A mission that is cancelled is settled, and one that completes
has empty stacks. Who ends the run is either the interpreter, which settles the mission, or the
program; then the exception is closed, or the block of its handler was left by a jump. -/
theorem run_ends {main : SkillDocument} {library : SkillLibrary} {p : Program}
    (hp : resolve main library = .ok p) {m : Mission} (hm : m.Begins p) {fuel : Nat}
    {report : MissionReport} {final : Mission} (hrun : m.run fuel = some (.ok report, final)) :
    (report.status = .cancelled → final.Settled) ∧
    (report.status = .completed → final.calls.isEmpty = true ∧ final.skills.isEmpty = true) ∧
    (p.size ≤ Program.sentinel →
      (∃ n, (m.after n).GivesUp final) ∧ final.Settled ∨
      (∃ n, (m.after n).Leaves final) ∧
        (final.handling = true ∨ final.symbols.flag Reserved.inException = false)) := by
  obtain ⟨hlinked, hbegin⟩ := linked_of_resolve hp
  obtain ⟨n, ⟨cancelled, hturn, hreport⟩ | ⟨fault, -, hfault⟩⟩ := run_eq_some hrun
  · refine ⟨fun hstatus => ?_, fun hstatus => ?_, fun hsize => ?_⟩
    · have hcancelled := report_cancelled hreport.symm hstatus
      rw [hcancelled, turn_eq] at hturn
      cases hb : (m.after n).boundary with
      | cancelled d =>
        rw [hb] at hturn
        have hfinal : d.unwind = final := congrArg Prod.snd hturn
        rw [← hfinal]
        exact settled_unwind d
      | ready r =>
        rw [hb] at hturn
        rcases r.step_goesOn with h | ⟨fault, h⟩ <;> cases h.symm.trans (congrArg Prod.fst hturn)
      | _ =>
        rw [hb] at hturn
        cases congrArg Prod.fst hturn
    · have hfinal : final = m.after (n + 1) := by rw [after_succ, hturn]
      have haligned := (after_stacked hm (n + 1)).aligned
      rw [← hfinal] at haligned
      have hcalls := report_completed hreport.symm hstatus
      exact ⟨hcalls, haligned.skills_isEmpty hcalls⟩
    · obtain ⟨k, h | h⟩ := run_over hlinked hsize hm hbegin hturn
      · exact .inl ⟨⟨k, h⟩, h.settled⟩
      · exact .inr ⟨⟨k, h⟩, h.closed⟩
  · cases hfault

theorem run_ends_calling : ∃ report final, callingMission.run 6 = some (.ok report, final) ∧
    (report.status = .cancelled → final.Settled) ∧
    (report.status = .completed → final.calls.isEmpty = true ∧ final.skills.isEmpty = true) ∧
    (callingProgram.size ≤ Program.sentinel →
      (∃ n, (callingMission.after n).GivesUp final) ∧ final.Settled ∨
      (∃ n, (callingMission.after n).Leaves final) ∧
        (final.handling = true ∨ final.symbols.flag Reserved.inException = false)) := by
  have hrun : ∃ report final, callingMission.run 6 = some (.ok report, final) := ⟨_, _, rfl⟩
  obtain ⟨report, final, hrun⟩ := hrun
  exact ⟨report, final, hrun, run_ends resolve_callingDocument callingMission_begins hrun⟩

/-- A document that jumps out of the block of its exception handler. -/
def leapingDocument : SkillDocument where
  name := "main"
  header := .empty
  steps :=
    [⟨"step 1", 1, "Search", blindSearch⟩, ⟨"step 2", 2, "Exception Handler", []⟩,
      ⟨"step 3", 3, "Goto", [("goto", .text "step 5")]⟩, ⟨"step 4", 4, "End Exception", []⟩,
      ⟨"step 5", 5, "Halt", []⟩]

/-- The program of `leapingDocument`. -/
def leapingProgram : Program where
  name := "main"
  skid := ""
  instructions := #[⟨⟨"main", 1, false⟩, .action "Search" blindSearch⟩,
    ⟨⟨"main", 2, false⟩, .exceptionHandler ⟨"", .null, none, none, none, none⟩ 4⟩,
    ⟨⟨"main", 3, false⟩, .goto 4 none⟩, ⟨⟨"main", 4, false⟩, .endException⟩,
    ⟨⟨"main", 5, false⟩, .action "Halt" []⟩, ⟨⟨"main", 5, true⟩, .finish⟩]
  functions := []
  skills := [("main", 0)]
  handlers := [("main", 1)]
  documents := [⟨"main", 0, 6⟩]

theorem resolve_leapingDocument : resolve leapingDocument .empty = .ok leapingProgram :=
  resolve_of_sorted rfl (by decide) (by decide) (by decide)

/-- The mission of `leapingProgram` whose first ping is not answered. -/
def leapingMission : Mission :=
  initial leapingProgram
    { World.plain 0 .empty with network := ⟨[none], some (.ofMillis 20), 0⟩ } promptConfig

theorem leapingMission_begins : leapingMission.Begins leapingProgram :=
  ⟨_, promptConfig, leapingMission, leapingMission.symbols, rfl, rfl⟩

/-- `leapingMission` when its exception was raised. -/
def leapingRaised : Mission := { leapingMission with
  work := {
    symbols := (leapingMission.symbols.setFlag Reserved.netConnected false).setFlag
      Reserved.inException true
    recovery := { leapingMission.recovery with exceptions := [unreached 0] }
    world := { leapingMission.world with network := ⟨[], some (.ofMillis 20), 1⟩ } }
  index := 1
  stepsExecuted := 1 }

theorem turn_leapingMission : leapingMission.turn = (.goOn, leapingRaised) := by
  rw [turn_blindSearch rfl rfl rfl rfl]
  rfl

/-- The mission completes, with its exception open and its handler being run. -/
theorem not_settled_leaping : resolve leapingDocument .empty = .ok leapingProgram ∧
    leapingMission.Begins leapingProgram ∧ ∃ report final,
      leapingMission.run 6 = some (.ok report, final) ∧ report.status = .completed ∧
        ¬ final.Settled := by
  refine ⟨resolve_leapingDocument, leapingMission_begins, _, _,
    (run_of_goesOn turn_leapingMission 5).trans rfl, rfl, fun h => ?_⟩
  cases h.handling

end Mission

end Deskhand
