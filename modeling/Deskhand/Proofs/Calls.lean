import Deskhand.Proofs.Alignment
import Deskhand.Proofs.Snapshots

/-!
# Calls and returns

A call pushes a frame, and everything that happens until that frame is left happens above it
(`Mission.above_call`). So when it is left the caller gets back what it had: both stacks, its argument
and its result, and control goes on behind the call (`Mission.call_restores`). This is about a pair of
steps of one run, whatever calls, failures and rollbacks lie between them.
-/

namespace Deskhand

namespace Mission

section Returned

variable (f : CallFrame) (v : Value) (t : SymbolTable)

theorem get?_returned_of_ne {name : String} (h : Text.trim f.output ≠ name) :
    (returned f v t).get? name =
      ((t.set Reserved.fin f.fin).set Reserved.fout f.fout).get? name := by
  unfold returned
  dsimp only
  split
  · rfl
  · exact SymbolTable.get?_declare_of_ne _ _ h.symm

/-- The caller's argument is back. -/
theorem get?_returned_fin (h : Text.trim f.output ≠ Reserved.fin) :
    (returned f v t).get? Reserved.fin = some f.fin := by
  rw [get?_returned_of_ne f v t h, SymbolTable.get?_set_of_ne _ _ (by decide),
    SymbolTable.get?_set_self]

/-- The caller's result is back. -/
theorem get?_returned_fout (h : Text.trim f.output ≠ Reserved.fout) :
    (returned f v t).get? Reserved.fout = some f.fout := by
  rw [get?_returned_of_ne f v t h, SymbolTable.get?_set_self]

/-- The name that the call gave its result to is bound to it. -/
theorem get?_returned_output (h : Text.trim f.output ≠ "") :
    (returned f v t).get? (Text.trim f.output) = some v := by
  unfold returned
  dsimp only
  rw [if_neg h, SymbolTable.get?_declare_self]

theorem mem_missionVars_returned (h : Text.trim f.output ≠ "") :
    Text.trim f.output ∈ (returned f v t).missionVars := by
  unfold returned
  dsimp only
  rw [if_neg h]
  exact (SymbolTable.mem_missionVars_declare _ _).2 (.inl rfl)

end Returned

end Mission

/-! ## Steps that call and steps that return -/

namespace Op

/-- The operation can return from a call. -/
inductive Returns : Op → Prop
  | giveBack (source : String) : Returns (.giveBack source)
  | endFunction (name : String) : Returns (.stub (.endFunction name))
  | endSkill (name : String) : Returns (.stub (.endSkill name))

end Op

namespace Mission

/-- What a step that returns gives back: the value of the expression of a `Return`, or `fout`. -/
def result? (op : Op) (m : Mission) : Option Value :=
  match op with
  | .giveBack source =>
    if Text.isBlankText source then some (m.symbols.value Reserved.fout)
    else (m.symbols.evaluate source).2.toOption
  | _ => some (m.symbols.value Reserved.fout)

/-- A call pushes its frame, and a call of a skill notes where it ends. -/
theorem perform_call {op : Op} {output : String} (h : op.output? = some output) (m : Mission) :
    ∃ entry t skills, op.jump? = some entry ∧
      m.perform op = (.next entry, { m.setSymbols t with
        calls := m.calls.onto (m.callFrame output), skills }) ∧
      (skills = m.skills ∨ ∃ name, skills = m.skills.push name (m.calls.size + 4)) := by
  have hskill (name : String) : m.skills.push name (m.calls.onto (m.callFrame output)).size =
      m.skills.push name (m.calls.size + 4) := by
    rw [CallStack.size_onto]
  cases op with
  | callFunction name entry param arg out =>
    cases h
    change ∃ entry' t skills, _ ∧ m.callFunction entry param arg output = _ ∧ _
    unfold callFunction
    dsimp only
    split
    · exact ⟨entry, _, m.skills, rfl, rfl, .inl rfl⟩
    · exact ⟨entry, _, m.skills, rfl, rfl, .inl rfl⟩
  | useSkill name entry arg out =>
    cases h
    exact ⟨entry, _, _, rfl, rfl, .inr ⟨name, hskill name⟩⟩
  | overloadSkill name entry arg out =>
    cases h
    exact ⟨entry, _, _, rfl, rfl, .inr ⟨name, hskill name⟩⟩
  | _ => cases h

/-- A step that returns leaves the newest frame with its result, unless it fails or ends the program
from outside of any skill. -/
theorem perform_returns {op : Op} (h : op.Returns) (m : Mission) :
    (∃ t v, m.result? op = some v ∧ m.perform op = (m.setSymbols t).leave v) ∨
      (∃ failure, (m.perform op).1 = .failed failure) ∨ m.SameStacks (m.perform op).2 := by
  cases h with
  | giveBack source =>
    change (∃ t v, m.result? (.giveBack source) = some v ∧ m.giveBack source = _) ∨
      (∃ failure, (m.giveBack source).1 = _) ∨ _
    unfold result?
    dsimp only
    rw [giveBack_eq]
    split
    · exact .inl ⟨m.symbols, _, rfl, rfl⟩
    · split
      · next t v ht => exact .inl ⟨t, v, by rw [ht]; rfl, rfl⟩
      · exact .inr (.inl ⟨_, rfl⟩)
  | endFunction name => exact .inl ⟨m.symbols, _, rfl, rfl⟩
  | endSkill name =>
    change (∃ t v, _ ∧ m.passStub (.endSkill name) = _) ∨
      _ ∨ m.SameStacks (m.passStub (.endSkill name)).2
    unfold passStub
    dsimp only
    split
    · exact .inr (.inr ⟨rfl, rfl⟩)
    · exact .inl ⟨m.symbols, _, rfl, rfl⟩

/-! ## Between a call and its return -/

/-- As long as no step returns from below the given stacks, a run goes on above them or is over. -/
theorem above_call {base : CallStack} {own : SkillStack} (hown : own.Within base.size) {m : Mission}
    (hm : Stacked base own m.calls m.skills) (n : Nat)
    (hsize : ∀ i ≤ n, (m.after i).calls.size ≠ base.popFrame.1.size) :
    (m.after n).isDone = true ∨ Stacked base own (m.after n).calls (m.after n).skills := by
  induction n with
  | zero => exact .inr hm
  | succ n ih =>
    rw [after_succ]
    rcases ih fun i hi => hsize i (Nat.le_succ_of_le hi) with hdone | hstack
    · rw [turn_of_isDone hdone]
      exact .inl hdone
    · rcases (m.after n).turn_stacks with h | h | ⟨r, -, h⟩
      · exact .inl h.done
      · right
        rwa [h.calls, h.skills]
      · rcases hstack.move hown h with h | ⟨-, -, hc, -⟩
        · exact .inr h
        · refine absurd ?_ (hsize (n + 1) (Nat.le_refl _))
          rw [after_succ, hc]

/-- The call that a run executes in turn `j` is answered in turn `k`: then, for the first time, a
step that returns brings the call stack back to its size. -/
structure Answered (m : Mission) (j k : Nat) (c r : Mission) (call back : Instruction)
    (output : String) : Prop where
  later : j < k
  caller : (m.after j).boundary = .ready c
  called : c.program.instructions[c.index]? = some call
  output : call.op.output? = some output
  callee : (m.after k).boundary = .ready r
  returned : r.program.instructions[r.index]? = some back
  returns : back.op.Returns
  completed : r.tick.1 = .ok .completed
  size : (m.after (k + 1)).calls.size = c.calls.size
  first : ∀ i, j < i → i ≤ k → (m.after i).calls.size ≠ c.calls.size

/-- The caller `c` has got back what it had, and the result `v` of its call. -/
structure Restored (c : Mission) (output : String) (result : Option Value) (m : Mission) : Prop where
  calls : m.calls = c.calls
  skills : m.skills = c.skills
  index : m.index = c.index + 1
  fin : Text.trim output ≠ Reserved.fin →
    m.symbols.get? Reserved.fin = some (c.symbols.value Reserved.fin)
  fout : Text.trim output ≠ Reserved.fout →
    m.symbols.get? Reserved.fout = some (c.symbols.value Reserved.fout)
  result : Text.trim output ≠ "" → ∃ v, result = some v ∧
    m.symbols.get? (Text.trim output) = some v ∧ Text.trim output ∈ m.symbols.missionVars

theorem leave_calls {m after : Mission} {v : Value} {outcome : Outcome}
    (h : m.leave v = (outcome, after)) : after.calls = m.calls.popFrame.1 := by
  rw [leave_eq] at h
  split at h
  · next hp =>
    cases h
    rw [hp]
  · next hp =>
    cases h
    rw [hp]

/-- The return from a frame on top of the caller's stacks. -/
theorem leave_restores {c m : Mission} {output : String} {v : Value} {own : SkillStack}
    (hc : m.calls = c.calls.onto (c.callFrame output)) (hs : m.skills = own)
    (hown : own.leftAt (c.calls.size + 4) = c.skills) {index : Nat} {after : Mission}
    (h : m.leave v = (.next index, after)) (steps : Nat) :
    Restored c output (some v) { after with index, stepsExecuted := steps } := by
  have hfin := get?_returned_fin (c.callFrame output) v m.symbols
  have hfout := get?_returned_fout (c.callFrame output) v m.symbols
  have hresult := get?_returned_output (c.callFrame output) v m.symbols
  have hdeclared := mem_missionVars_returned (c.callFrame output) v m.symbols
  rw [leave_eq, hc, CallStack.popFrame_onto, CallStack.size_onto, hs, hown] at h
  dsimp only at h
  generalize returned (c.callFrame output) v m.symbols = t at hfin hfout hresult hdeclared h
  cases h
  exact ⟨rfl, rfl, rfl, hfin, hfout, fun hout => ⟨v, rfl, hresult hout, hdeclared hout⟩⟩

/-- Call and return restore the caller, whatever happens in between. -/
theorem call_restores {p : Program} {m : Mission} (hm : m.Begins p) {j k : Nat} {c r : Mission}
    {call back : Instruction} {output : String} (h : m.Answered j k c r call back output) :
    Restored c output (r.result? back.op) (m.after (k + 1)) := by
  -- the call pushes a frame on the stacks of the caller, which are in order
  have hstacks := ready_stacks h.caller
  have hcaller := (hstacks.aligned (after_stacked hm j).aligned).within
  obtain ⟨entry, t, own, -, hcall, hskills⟩ := perform_call h.output c
  have hown : own.Within (c.calls.onto (c.callFrame output)).size ∧
      own.leftAt (c.calls.size + 4) = c.skills := by
    rw [CallStack.size_onto]
    rcases hskills with rfl | ⟨name, rfl⟩
    · refine ⟨fun f hf => Nat.le_add_right_of_le (hcaller f hf), ?_⟩
      exact Stacked.leftAt_of_within hcaller (Nat.lt_add_of_pos_right (by decide))
    · refine ⟨fun f hf => ?_, Stacked.leftAt_push _ _ _⟩
      rcases List.mem_cons.1 hf with rfl | hf
      · exact Nat.le_refl _
      · exact Nat.le_add_right_of_le (hcaller f hf)
  have hafter : m.after (j + 1) = { c.setSymbols t with
      calls := c.calls.onto (c.callFrame output)
      skills := own
      index := entry
      stepsExecuted := c.stepsExecuted + 1 } := by
    rw [after_succ, turn_of_ready h.caller, step_snd, tick_next h.called hcall]
    rfl
  -- up to the return the run goes on above them
  obtain ⟨n, rfl⟩ := Nat.exists_eq_add_of_lt h.later
  have habove := above_call (m := m.after (j + 1)) hown.1 (by rw [hafter]; exact .base) n
    fun i hi => by
      rw [← after_add, CallStack.popFrame_onto]
      exact h.first _ (by omega) (by omega)
  rw [← after_add, Nat.add_right_comm] at habove
  have hback := ready_stacks h.callee
  have hstack : Stacked (c.calls.onto (c.callFrame output)) own r.calls r.skills := by
    rcases habove with hdone | hstack
    · rw [not_isDone_of_ready h.callee] at hdone
      cases hdone
    · rwa [hback.calls, hback.skills]
  obtain ⟨index, after, hnext⟩ := next_of_completed h.returned h.completed
  have hlast : m.after (j + n + 1 + 1) =
      { after with index, stepsExecuted := after.stepsExecuted + 1 } := by
    rw [after_succ, turn_of_ready h.callee, step_snd, tick_next h.returned hnext]
  have hsize := h.size
  rw [hlast] at hsize ⊢
  rcases perform_returns h.returns r with ⟨t, v, hv, hleave⟩ | ⟨failure, hfailed⟩ | hsame
  · rw [hnext] at hleave
    rcases hstack.back hown.1 with hstill | ⟨hcalls, hskills⟩
    · -- the frame of the call would still be there
      have hpop : after.calls = r.calls.popFrame.1 := leave_calls (m := r.setSymbols t) hleave.symm
      have hle := hstill.size_le
      rw [← hpop, CallStack.size_onto] at hle
      exact absurd hsize (by simp only; omega)
    · rw [hv]
      exact leave_restores (m := r.setSymbols t) hcalls hskills hown.2 hleave.symm _
  · rw [hnext] at hfailed
    cases hfailed
  · rw [hnext] at hsame
    refine absurd ?_ (h.first (j + n + 1) (by omega) (Nat.le_refl _))
    rw [← hback.calls, ← hsame.calls]
    exact hsize

/-- The call that `callingMission` executes in its second turn is answered in its fourth one. -/
theorem callingMission_answered : callingMission.Answered 1 3 (callingMission.after 1)
    (callingMission.after 3) ⟨⟨"main", 4, false⟩, .callFunction "f" 1 "" "" "r"⟩
    ⟨⟨"main", 3, false⟩, .stub (.endFunction "f")⟩ "r" where
  later := by decide
  caller := rfl
  called := rfl
  output := rfl
  callee := rfl
  returned := rfl
  returns := .endFunction "f"
  completed := rfl
  size := rfl
  first i hlo hhi := by
    obtain rfl | rfl : i = 2 ∨ i = 3 := by omega
    · exact (by decide : 4 ≠ 0)
    · exact (by decide : 4 ≠ 0)

theorem call_restores_calling : Restored (callingMission.after 1) "r"
    ((callingMission.after 3).result? (.stub (.endFunction "f"))) (callingMission.after 4) :=
  call_restores callingMission_begins callingMission_answered

end Mission

end Deskhand
