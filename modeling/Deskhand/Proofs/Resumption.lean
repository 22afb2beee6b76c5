import Deskhand.Proofs.Rollback

/-!
# Where a mission resumes

A rollback point is an address and the mission variables; it does not note which calls are under way.
So going back leaves both stacks as they are, and a function that has returned since is gone on
without its frame (`Mission.not_resumesInContext`). If the call in which the point was put down has
not been left, the stacks are those of that time exactly when no later call is under way
(`Mission.resumes_at_point`).
-/

namespace Deskhand

/-- Stacks that were built on others and are no higher are the same. -/
theorem Stacked.eq_of_size {base calls : CallStack} {own skills : SkillStack}
    (h : Stacked base own calls skills) (hsize : calls.size = base.size) :
    calls = base ∧ skills = own := by
  cases h with
  | base => exact ⟨rfl, rfl⟩
  | call f h =>
    have hle := h.size_le
    rw [CallStack.size_onto] at hsize
    omega
  | skill f name h =>
    have hle := h.size_le
    rw [CallStack.size_onto] at hsize
    omega

namespace Mission

namespace RollsBack

variable {m b : Mission}

theorem not_isDone (h : m.RollsBack b) : m.isDone = false := by
  cases h with
  | recovery hb hretry =>
    have hs := m.boundary_sound
    rw [hb] at hs
    exact hs.1
  | handler hb hi hends => exact not_isDone_of_ready hb

theorem sameStacks (h : m.RollsBack b) : m.SameStacks m.turn.2 := by
  obtain ⟨other, steps, hturn⟩ := h.turn
  have hsame := h.before.2
  rw [hturn]
  exact ⟨hsame.calls, hsame.skills⟩

theorem index (h : m.RollsBack b) {point : RollbackPoint} {rest : PageStack}
    (hpop : b.recovery.pages.pop = some (point, rest)) : m.turn.2.index = point.address := by
  obtain ⟨other, steps, hturn⟩ := h.turn
  have hback : b.rollBack.1 = some point.address := by
    unfold rollBack Recovery.rollBack
    rw [hpop]
    rfl
  rw [hturn, hback]
  rfl

end RollsBack

/-- The call stack has not been shorter since turn `j` was over. -/
def Keeps (m : Mission) (j n : Nat) : Prop :=
  ∀ k, j < k → k ≤ n → (m.after (j + 1)).calls.size ≤ (m.after k).calls.size

/-- As long as the call stack does not become shorter, the stacks stand on those of the beginning. -/
theorem stacked_since {p : Program} {m : Mission} (hm : m.Begins p) {j n : Nat} (hjn : j < n)
    (hkeeps : m.Keeps j n) : (m.after n).isDone = true ∨
      Stacked (m.after (j + 1)).calls (m.after (j + 1)).skills (m.after n).calls (m.after n).skills := by
  have haligned := (after_stacked hm (j + 1)).aligned
  rcases haligned.popFrame with hempty | ⟨f, rest, hcalls, hpop⟩
  · -- a return from empty stacks would take nothing off, but they are what the run began with
    have hskills : (m.after (j + 1)).skills = .empty :=
      SkillStack.eq_empty (haligned.skills_isEmpty (by rw [hempty]; rfl))
    rw [hempty, hskills]
    exact .inr (after_stacked hm n)
  · obtain ⟨d, rfl⟩ := Nat.exists_eq_add_of_lt hjn
    have habove := above_call (m := m.after (j + 1)) haligned.within .base d fun i hi => by
      have hle := hkeeps (j + 1 + i) (by omega) (by omega)
      rw [← after_add, hpop]
      rw [hcalls, CallStack.size_onto] at hle
      exact Nat.ne_of_gt (Nat.lt_of_lt_of_le (Nat.lt_add_of_pos_right (by decide)) hle)
    rwa [← after_add, Nat.add_right_comm] at habove

/-- What going back to a rollback point does to the stacks: they stay as they are, and the mission
goes on at the point. If the call in which the point was put down has not been left, the stacks are
those of that time exactly when all later calls have returned. -/
theorem resumes_at_point {p : Program} {m : Mission} (hm : m.Begins p) {n : Nat} {b : Mission}
    (hb : (m.after n).RollsBack b) {point : RollbackPoint} {rest : PageStack}
    (hpop : b.recovery.pages.pop = some (point, rest)) :
    (m.after (n + 1)).index = point.address ∧ (m.after n).SameStacks (m.after (n + 1)) ∧
      (∃ j < n, (m.after j).Records point) ∧
      ∀ j < n, (m.after j).Records point → m.Keeps j n →
        ((m.after (j + 1)).SameStacks (m.after (n + 1)) ↔
          (m.after n).calls.size = (m.after (j + 1)).calls.size) := by
  have hstacks : (m.after n).SameStacks (m.after (n + 1)) := by
    rw [after_succ]
    exact hb.sameStacks
  refine ⟨?_, hstacks, hb.recorded hm hpop,
    fun j hjn hrecords hkeeps => ⟨fun hsame => ?_, fun hsize => ?_⟩⟩
  · rw [after_succ]
    exact hb.index hpop
  · rw [← hstacks.calls, hsame.calls]
  · rcases stacked_since hm hjn hkeeps with hdone | hstacked
    · rw [hb.not_isDone] at hdone
      cases hdone
    · obtain ⟨hcalls, hskills⟩ := hstacked.eq_of_size hsize
      exact ⟨hstacks.calls.trans hcalls, hstacks.skills.trans hskills⟩

/-- The mission whose first ping is not answered, behind its search in the function. -/
def faultedMission : Mission := { typedMission [none] with
  work := {
    symbols := ((typedMission [none]).symbols.setFlag Reserved.netConnected false).setFlag
      Reserved.inException true
    recovery := { (typedMission [none]).recovery with exceptions := [unreached 2] }
    world := { (typedMission [none]).world with network := ⟨[], some (.ofMillis 20), 1⟩ } }
  index := 3
  stepsExecuted := 4 }

theorem after_faulted : (typingMission [none]).after 4 = faultedMission := by
  rw [after_succ, after_typed, turn_blindSearch rfl rfl rfl rfl]
  rfl

/-- The mission when the site is reached again. -/
def calmedMission : Mission := (faultedMission.setWorld
  (faultedMission.world.retry (faultedMission.recovery.config.policyFor none)).2).arrived

theorem faultedMission_rollsBack : ((typingMission [none]).after 4).RollsBack calmedMission := by
  rw [after_faulted]
  exact .recovery rfl rfl

theorem typingMission_records : ((typingMission [none]).after 2).Records typingPoint := by
  refine ⟨(typingMission [none]).after 2, rfl, ?_, ?_⟩
  · rw [← after_succ, after_typed]
    rfl
  · rw [← after_succ, after_typed]
    rfl

theorem typingMission_keeps : (typingMission [none]).Keeps 2 4 := by
  intro k hlo hhi
  obtain rfl | rfl : k = 3 ∨ k = 4 := by omega
  · exact Nat.le_refl _
  · rw [after_faulted, after_typed]
    exact Nat.le_refl _

/-- A fault that is found before the function has returned is recovered from in its frame. -/
theorem resumes_at_point_typing : ((typingMission [none]).after 5).index = 2 ∧
    ((typingMission [none]).after 3).SameStacks ((typingMission [none]).after 5) := by
  have hpop : calmedMission.recovery.pages.pop =
    some (typingPoint, (typingMission []).recovery.pages) := rfl
  have hsize : ((typingMission [none]).after 4).calls.size =
      ((typingMission [none]).after 3).calls.size := by
    rw [after_faulted, after_typed]
    rfl
  obtain ⟨hindex, -, -, hsame⟩ :=
    resumes_at_point (typingMission_begins [none]) faultedMission_rollsBack hpop
  exact ⟨hindex, (hsame 2 (by decide) typingMission_records typingMission_keeps).2 hsize⟩

/-- Whenever the mission goes back to a rollback point, the stacks are those of the time at which
that point was put down. -/
def ResumesInContext (m : Mission) : Prop :=
  ∀ (n : Nat) (b : Mission) (point : RollbackPoint) (rest : PageStack), (m.after n).RollsBack b →
    b.recovery.pages.pop = some (point, rest) →
      ∃ j < n, (m.after j).Records point ∧ (m.after (j + 1)).SameStacks (m.after (n + 1))

/-- If the fault is found when the function has returned, the mission resumes in the function without
its frame. -/
theorem not_resumesInContext : resolve typingDocument .empty = .ok typingProgram ∧
    (typingMission [some .zero, none]).Begins typingProgram ∧
    ¬ (typingMission [some .zero, none]).ResumesInContext := by
  refine ⟨resolve_typingDocument, typingMission_begins _, fun h => ?_⟩
  obtain ⟨j, hj, ⟨r, hr, hpoint, -⟩, hsame⟩ :=
    h 6 reachedMission typingPoint _ raisedMission_rollsBack pop_reachedMission
  have hcalls : ((typingMission [some .zero, none]).after 7).calls = .empty := by
    rw [after_succ, raisedMission_rollsBack.sameStacks.calls, after_raised]
    rfl
  have hindex : r.index = 1 := (Nat.succ.inj (congrArg RollbackPoint.address hpoint)).symm
  have hready : ∀ {m : Mission}, m = (typingMission [some .zero, none]).after j →
      m.boundary = .ready m → m.index = 1 := by
    rintro m rfl hb
    rw [hb] at hr
    cases hr
    exact hindex
  have hthen := hsame.calls
  rw [hcalls] at hthen
  -- the point was put down by the third turn, which ended with a frame on the stack
  obtain rfl | rfl | rfl | rfl | rfl | rfl :
    j = 0 ∨ j = 1 ∨ j = 2 ∨ j = 3 ∨ j = 4 ∨ j = 5 := by omega
  · cases hready rfl rfl
  · cases hready rfl rfl
  · rw [after_typed] at hthen
    cases hthen
  · cases hready (after_typed _).symm rfl
  · cases hready after_searched.symm rfl
  · cases hready after_returned.symm rfl

end Mission

end Deskhand
