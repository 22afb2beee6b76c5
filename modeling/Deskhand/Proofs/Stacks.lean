import Deskhand.Proofs.Drafts
import Deskhand.Proofs.Run

/-!
# The two stacks

The call stack is made of whole frames, and every running skill notes where one of them ends. What a
step can do to the stacks is said once (`Mission.perform_stacks`): it keeps them, pushes a frame,
returns to the newest one, or leaves everything. So the stacks are always built on the ones they had
earlier (`Stacked`), as long as no step returns below those; `Aligned` is what this means for stacks
that were empty in the beginning.
-/

namespace Deskhand

open Relation (ReflTransGen)

namespace CallStack

@[simp] theorem length_frameEntries (f : CallFrame) : (frameEntries f).length = 4 := rfl

@[simp] theorem size_onto (f : CallFrame) (s : CallStack) : (s.onto f).size = s.size + 4 := by
  simp [onto, size]
  omega

@[simp] theorem popFrame_onto (f : CallFrame) (s : CallStack) :
    (s.onto f).popFrame = (s, some f) := rfl

/-- A frame is taken off only if it is there as a whole. -/
theorem eq_onto_of_popFrame {f : CallFrame} {s rest : CallStack}
    (h : s.popFrame = (rest, some f)) : s = rest.onto f := by
  obtain ⟨entries⟩ := s
  unfold popFrame at h
  split at h
  · next hs =>
    cases hs
    cases h
    rfl
  all_goals cases h

@[simp] theorem popFrame_empty : empty.popFrame = (empty, none) := rfl

theorem eq_empty {s : CallStack} (h : s.isEmpty = true) : s = empty := by
  obtain ⟨entries⟩ := s
  cases List.isEmpty_iff.1 h
  rfl

end CallStack

/-! ## What a step does to the stacks -/

/-- What a step does to the stacks, unless it leaves everything. -/
inductive StackMove (calls : CallStack) (skills : SkillStack) : CallStack → SkillStack → Prop
  | keep : StackMove calls skills calls skills
  | call (f : CallFrame) : StackMove calls skills (calls.onto f) skills
  | skill (f : CallFrame) (name : String) :
    StackMove calls skills (calls.onto f) (skills.push name (calls.size + 4))
  | back : StackMove calls skills calls.popFrame.1 (skills.leftAt calls.size)

namespace Mission

/-- The stacks are as they were. -/
structure SameStacks (m m' : Mission) : Prop where
  calls : m'.calls = m.calls
  skills : m'.skills = m.skills

theorem SameStacks.move {m m' : Mission} (h : m.SameStacks m') :
    StackMove m.calls m.skills m'.calls m'.skills := by
  rw [h.calls, h.skills]
  exact .keep

/-- What an instruction does to the stacks. -/
theorem perform_stacks (op : Op) (m : Mission) :
    m.perform op = (.next Program.sentinel, m.unwind) ∨
      StackMove m.calls m.skills (m.perform op).2.calls (m.perform op).2.skills := by
  have h := m.performed op
  generalize m.perform op = r at h
  cases h with
  | worked hw => exact .inr .keep
  | @called _ _ output hw hop => exact .inr (.call (m.callFrame output))
  | @entered _ _ output name hw hop =>
    have hskill : StackMove m.calls m.skills (m.calls.onto (m.callFrame output))
        (m.skills.push name (m.calls.size + 4)) := .skill (m.callFrame output) name
    rw [← CallStack.size_onto (m.callFrame output)] at hskill
    exact .inr hskill
  | returned hw => exact .inr .back
  | unwound => exact .inl rfl
  | backed => exact .inr .keep

end Mission

/-! ## Stacks built on others -/

/-- The stacks were built by calls on the ones of a certain time. -/
inductive Stacked (base : CallStack) (own : SkillStack) : CallStack → SkillStack → Prop
  | base : Stacked base own base own
  | call {calls : CallStack} {skills : SkillStack} (f : CallFrame)
    (h : Stacked base own calls skills) : Stacked base own (calls.onto f) skills
  | skill {calls : CallStack} {skills : SkillStack} (f : CallFrame) (name : String)
    (h : Stacked base own calls skills) :
    Stacked base own (calls.onto f) (skills.push name (calls.size + 4))

theorem SkillStack.eq_empty {s : SkillStack} (h : s.isEmpty = true) : s = .empty := by
  obtain ⟨frames⟩ := s
  cases frames with
  | nil => rfl
  | cons f rest => cases h

/-- No running skill notes more than there is on the call stack. -/
def SkillStack.Within (size : Nat) (s : SkillStack) : Prop := ∀ f ∈ s.frames, f.depth ≤ size

theorem SkillStack.within_empty (size : Nat) : SkillStack.empty.Within size := by
  intro f hf
  cases hf

namespace Stacked

variable {base calls calls' : CallStack} {own skills skills' : SkillStack}

theorem size_le (h : Stacked base own calls skills) : base.size ≤ calls.size := by
  induction h with
  | base => exact Nat.le_refl _
  | call f _ ih => rw [CallStack.size_onto]; omega
  | skill f name _ ih => rw [CallStack.size_onto]; omega

theorem within (hown : own.Within base.size) (h : Stacked base own calls skills) :
    skills.Within calls.size := by
  induction h with
  | base => exact hown
  | call f _ ih =>
    intro frame hf
    rw [CallStack.size_onto]
    exact Nat.le_add_right_of_le (ih frame hf)
  | skill f name _ ih =>
    intro frame hf
    rw [CallStack.size_onto]
    rcases List.mem_cons.1 hf with rfl | hf
    · exact Nat.le_refl _
    · exact Nat.le_add_right_of_le (ih frame hf)

/-- A skill is over when its own frame is left. -/
theorem leftAt_push (name : String) (depth : Nat) (s : SkillStack) :
    (s.push name depth).leftAt depth = s := by
  simp [SkillStack.leftAt, SkillStack.push, SkillStack.top?, SkillStack.pop]

/-- A skill whose frame is deeper than the top of the stack goes on when the top is left. -/
theorem leftAt_of_within {size depth : Nat} (hs : skills.Within size) (hd : size < depth) :
    skills.leftAt depth = skills := by
  unfold SkillStack.leftAt
  split
  · next frame hf =>
    have hle := hs frame (List.mem_of_mem_head? hf)
    rw [if_neg (by omega)]
  · rfl

/-- A return goes back by one call, unless it leaves the base. -/
theorem back (hown : own.Within base.size) (h : Stacked base own calls skills) :
    Stacked base own calls.popFrame.1 (skills.leftAt calls.size) ∨ calls = base ∧ skills = own := by
  cases h with
  | base => exact .inr ⟨rfl, rfl⟩
  | call f h =>
    left
    rw [CallStack.popFrame_onto, CallStack.size_onto,
      leftAt_of_within (h.within hown) (Nat.lt_add_of_pos_right (by decide))]
    exact h
  | skill f name h =>
    left
    rw [CallStack.popFrame_onto, CallStack.size_onto, leftAt_push]
    exact h

/-- What a step does to stacks that were built on others: they still are, or the step returns from
the base itself. -/
theorem move (hown : own.Within base.size) (h : Stacked base own calls skills)
    (hm : StackMove calls skills calls' skills') :
    Stacked base own calls' skills' ∨ (calls = base ∧ skills = own ∧
      calls' = base.popFrame.1 ∧ skills' = own.leftAt base.size) := by
  cases hm with
  | keep => exact .inl h
  | call f => exact .inl (.call f h)
  | skill f name => exact .inl (.skill f name h)
  | back =>
    rcases h.back hown with hb | ⟨rfl, rfl⟩
    · exact .inl hb
    · exact .inr ⟨rfl, rfl, rfl, rfl⟩

end Stacked

namespace Mission

/-! ## The stacks along a run -/

/-- The mission has left everything that was under way and is over. -/
structure Left (m : Mission) : Prop where
  done : m.isDone = true
  calls : m.calls = .empty
  skills : m.skills = .empty

theorem left_unwind (m : Mission) : m.unwind.Left where
  done := by simp [unwind, isDone]
  calls := rfl
  skills := rfl

theorem left_fail (reason : String) (m : Mission) : (m.fail reason).Left := left_unwind _

theorem drained_stacks {m d : Mission} (h : m.Drained d) : m.SameStacks d := by
  obtain ⟨w, b, -, rfl⟩ := h
  exact ⟨rfl, rfl⟩

theorem ready_stacks {m r : Mission} (h : m.boundary = .ready r) : m.SameStacks r := by
  have hs := m.boundary_sound
  rw [h] at hs
  obtain ⟨-, d, ⟨w, b, -, rfl⟩, rfl | ⟨i, -, rfl⟩⟩ := hs
  · exact ⟨rfl, rfl⟩
  · exact ⟨rfl, rfl⟩

theorem reconnect_stacks (m : Mission) : m.SameStacks m.reconnect := by
  unfold reconnect
  cases h : m.refreshPage with
  | error fault => exact ⟨rfl, rfl⟩
  | ok m' =>
    obtain ⟨w, -, rfl⟩ := refreshPage_eq h
    exact ⟨rfl, rfl⟩

theorem recover_stacks (m : Mission) : m.recover.Left ∨ m.SameStacks m.recover := by
  unfold recover
  dsimp only
  split
  · next w _ =>
    have h := (m.setWorld w).reconnect_stacks
    exact .inr ⟨h.calls, h.skills⟩
  · exact .inl (left_fail _ _)

theorem step_stacks (m : Mission) :
    m.step.2.Left ∨ StackMove m.calls m.skills m.step.2.calls m.step.2.skills := by
  rw [step_snd]
  generalize hr : m.tick = r
  have h := m.ticked
  rw [hr] at h
  cases h with
  | none hi => exact .inr .keep
  | @aborted i _ _ hi hp =>
    rcases m.perform_stacks i.op with h | h
    · rw [hp] at h
      cases h
    · rw [hp] at h
      exact .inr h
  | @next i _ _ hi hp =>
    rcases m.perform_stacks i.op with h | h
    · rw [hp] at h
      cases h
      exact .inl ⟨(left_unwind m).done, rfl, rfl⟩
    · rw [hp] at h
      exact .inr h
  | @failed i _ _ tag hi hp =>
    rcases m.perform_stacks i.op with h | h
    · rw [hp] at h
      cases h
    · rw [hp] at h
      exact .inr h

/-- What a turn does to the stacks. -/
theorem turn_stacks (m : Mission) :
    m.turn.2.Left ∨ m.SameStacks m.turn.2 ∨ ∃ r, m.boundary = .ready r ∧
      StackMove m.calls m.skills m.turn.2.calls m.turn.2.skills := by
  have hs := m.boundary_sound
  rw [turn_eq]
  cases hb : m.boundary with
  | finished => exact .inr (.inl ⟨rfl, rfl⟩)
  | cancelled d => exact .inl (left_unwind d)
  | exhausted limit d => exact .inl (left_fail _ d)
  | recovering d =>
    rw [hb] at hs
    have hd := drained_stacks hs.2
    refine d.recover_stacks.imp_right fun h => .inl ?_
    exact ⟨h.calls.trans hd.calls, h.skills.trans hd.skills⟩
  | ready r =>
    have hr := ready_stacks hb
    refine r.step_stacks.imp_right fun h => .inr ⟨r, rfl, ?_⟩
    rwa [hr.calls, hr.skills] at h

theorem Begins.program {p : Program} {m : Mission} (h : m.Begins p) : m.program = p := by
  obtain ⟨world, config, t, -, rfl⟩ := h.eq_initial
  rfl

theorem Begins.stacks {p : Program} {m : Mission} (h : m.Begins p) :
    m.calls = .empty ∧ m.skills = .empty := by
  obtain ⟨world, config, t, -, rfl⟩ := h.eq_initial
  exact ⟨rfl, rfl⟩

/-- Along a whole run the stacks are built by calls on empty ones. -/
theorem after_stacked {p : Program} {m : Mission} (hm : m.Begins p) (n : Nat) :
    Stacked .empty .empty (m.after n).calls (m.after n).skills := by
  induction n with
  | zero =>
    rw [after_zero, hm.stacks.1, hm.stacks.2]
    exact .base
  | succ n ih =>
    rw [after_succ]
    rcases (m.after n).turn_stacks with h | h | ⟨r, -, h⟩
    · rw [h.calls, h.skills]
      exact .base
    · rwa [h.calls, h.skills]
    · rcases ih.move (SkillStack.within_empty _) h with h | ⟨-, -, hc, hs⟩
      · exact h
      · -- a return from empty stacks finds nothing to take off
        rw [hc, hs]
        exact .base

end Mission

/-! ## Stacks that were empty in the beginning -/

/-- The call stack consists of whole frames, and the running skills note, the newest first, ever
lower places between two frames. -/
structure Aligned (calls : CallStack) (skills : SkillStack) : Prop where
  whole : ∃ frames : List CallFrame, calls.entries = frames.flatMap CallStack.frameEntries
  increasing : skills.frames.Pairwise fun newer older => older.depth < newer.depth
  positive : ∀ f ∈ skills.frames, 0 < f.depth
  multiple : ∀ f ∈ skills.frames, 4 ∣ f.depth
  within : skills.Within calls.size

theorem Stacked.four_dvd {calls : CallStack} {skills : SkillStack}
    (h : Stacked .empty .empty calls skills) : 4 ∣ calls.size := by
  induction h with
  | base => exact Nat.dvd_zero 4
  | call f _ ih => rw [CallStack.size_onto]; omega
  | skill f name _ ih => rw [CallStack.size_onto]; omega

theorem Stacked.aligned {calls : CallStack} {skills : SkillStack}
    (h : Stacked .empty .empty calls skills) : Aligned calls skills := by
  have hwithin := h.within (SkillStack.within_empty _)
  induction h with
  | base => exact ⟨⟨[], rfl⟩, .nil, nofun, nofun, hwithin⟩
  | call f h ih =>
    have hold := ih (h.within (SkillStack.within_empty _))
    obtain ⟨frames, hframes⟩ := hold.whole
    refine ⟨⟨f :: frames, ?_⟩, hold.increasing, hold.positive, hold.multiple, hwithin⟩
    rw [List.flatMap_cons, ← hframes]
    rfl
  | @skill calls skills f name h ih =>
    have hold := ih (h.within (SkillStack.within_empty _))
    obtain ⟨frames, hframes⟩ := hold.whole
    refine ⟨⟨f :: frames, ?_⟩, ?_, ?_, ?_, hwithin⟩
    · rw [List.flatMap_cons, ← hframes]
      rfl
    · refine .cons (fun older hold' => ?_) hold.increasing
      exact Nat.lt_of_le_of_lt (hold.within older hold') (Nat.lt_add_of_pos_right (by decide))
    · intro frame hf
      rcases List.mem_cons.1 hf with rfl | hf
      · exact Nat.succ_pos _
      · exact hold.positive frame hf
    · intro frame hf
      rcases List.mem_cons.1 hf with rfl | hf
      · exact Nat.dvd_add h.four_dvd (Nat.dvd_refl 4)
      · exact hold.multiple frame hf

namespace Aligned

variable {calls : CallStack} {skills : SkillStack}

/-- Taking a frame off finds a whole one, unless the stack is empty. -/
theorem popFrame (h : Aligned calls skills) : calls = .empty ∨
    ∃ f rest, calls = CallStack.onto f rest ∧ calls.popFrame = (rest, some f) := by
  obtain ⟨frames, hframes⟩ := h.whole
  obtain ⟨entries⟩ := calls
  cases frames with
  | nil =>
    cases hframes
    exact .inl rfl
  | cons f frames =>
    cases hframes
    exact .inr ⟨f, ⟨frames.flatMap CallStack.frameEntries⟩, rfl, rfl⟩

/-- Where a skill runs, the call stack is not empty. -/
theorem ne_empty (h : Aligned calls skills) (hs : skills.isEmpty = false) : calls ≠ .empty := by
  obtain ⟨frames⟩ := skills
  rintro rfl
  cases frames with
  | nil => cases hs
  | cons f frames =>
    have hpos := h.positive f List.mem_cons_self
    have hle := h.within f List.mem_cons_self
    exact absurd hle (Nat.not_le.2 hpos)

theorem skills_isEmpty (h : Aligned calls skills) (hc : calls.isEmpty = true) :
    skills.isEmpty = true := by
  cases hs : skills.isEmpty with
  | true => rfl
  | false =>
    refine absurd ?_ (h.ne_empty hs)
    exact CallStack.eq_empty hc

end Aligned

theorem Mission.SameStacks.aligned {m m' : Mission} (h : m.SameStacks m')
    (ha : Aligned m.calls m.skills) : Aligned m'.calls m'.skills := by
  rwa [h.calls, h.skills]

end Deskhand
