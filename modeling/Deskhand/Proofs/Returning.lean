import Deskhand.Proofs.Calls
import Deskhand.Proofs.Calm
import Deskhand.Proofs.Origins

/-!
# Returning from a skill

A call of a skill enters one of the documents of the program, and what happens behind the last step of
that document depends on the document alone. Every document but the main one ends with a mark that
returns to the caller; the main one ends the program, also when it was called
(`Mission.called_skill_returns`). So a main document that calls itself does not come back
(`Mission.not_called_main_returns`).
-/

namespace Deskhand

namespace Mission

/-- A mission has run off the last step of a document, with the stacks of another one. -/
structure RunsOff (doc : DocumentSpan) (inside e : Mission) : Prop where
  program : e.program = inside.program
  index : e.index + 1 = doc.stop
  calls : e.calls = inside.calls
  skills : e.skills = inside.skills

/-- The mission right after the call of a skill. -/
def entered (name : String) (entry : Nat) (arg output : String) (m : Mission) : Mission :=
  (m.useSkill name entry arg output).2.counted.goTo entry

section Entered

variable (name : String) (entry : Nat) (arg output : String) (m : Mission)

theorem tick_skill {op : Op} (hop : m.program.op? m.index = some op)
    (hcall : op = .useSkill name entry arg output ∨ op = .overloadSkill name entry arg output) :
    m.tick = (.ok .completed, m.entered name entry arg output) := by
  rcases hcall with rfl | rfl
  · exact tick_of_op? hop rfl
  · exact tick_of_op? hop rfl

@[simp] theorem entered_program : (m.entered name entry arg output).program = m.program := rfl

@[simp] theorem entered_index : (m.entered name entry arg output).index = entry := rfl

/-- A call pushes a frame with where to return to. -/
@[simp] theorem entered_calls :
    (m.entered name entry arg output).calls = m.calls.onto (m.callFrame output) := rfl

/-- The skill notes the size that the call stack then has. -/
@[simp] theorem entered_skills :
    (m.entered name entry arg output).skills = m.skills.push name (m.calls.size + 4) := by
  rw [← CallStack.size_onto (m.callFrame output)]
  rfl

end Entered

/-- The mark at the end of a document returns to the caller of the document. -/
theorem tick_endSkill {caller e : Mission} {skill name arg output : String} {entry : Nat}
    {doc : DocumentSpan} (hop : e.program.op? e.index = some (.stub (.endSkill skill)))
    (hoff : RunsOff doc (caller.entered name entry arg output) e) :
    ∃ after, e.tick = (.ok .completed, after) ∧
      Restored caller output (some (e.symbols.value Reserved.fout)) after := by
  have hcalls := hoff.calls
  have hskills := hoff.skills
  rw [entered_calls] at hcalls
  rw [entered_skills] at hskills
  have hpass : e.perform (.stub (.endSkill skill)) = e.leave (e.symbols.value Reserved.fout) := by
    change e.passStub (.endSkill skill) = _
    unfold passStub
    dsimp only
    rw [hskills, if_neg nofun]
  obtain ⟨index, after, hleave⟩ : ∃ index after,
      e.leave (e.symbols.value Reserved.fout) = (.next index, after) := by
    rw [leave_eq, hcalls, CallStack.popFrame_onto]
    exact ⟨_, _, rfl⟩
  have hback := leave_restores hcalls hskills (Stacked.leftAt_push _ _ _) hleave
  exact ⟨_, tick_of_op? hop (hpass.trans hleave), hback _⟩

/-- A call of a skill enters a document of the program. When the document has run off its last step with
the frame of the call on top of the stacks, control goes on behind the call, unless it is the main
document: that one ends the program, and leaves the stacks as they are. -/
theorem called_skill_returns {main : SkillDocument} {library : SkillLibrary} {p : Program}
    (h : resolve main library = .ok p) {m : Mission} (hm : m.program = p) {op : Op}
    {name arg output : String} {entry : Nat} (hop : p.op? m.index = some op)
    (hcall : op = .useSkill name entry arg output ∨ op = .overloadSkill name entry arg output) :
    ∃ (k : Nat) (doc : DocumentSpan) (inside : Mission), p.documents[k]? = some doc ∧
      doc.start ≤ entry ∧ entry < doc.stop ∧ m.tick = (.ok .completed, inside) ∧
      inside.index = entry ∧ ∀ e, RunsOff doc inside e →
        (0 < k → ∃ after, e.tick = (.ok .completed, after) ∧
          Restored m output (some (e.symbols.value Reserved.fout)) after) ∧
        (k = 0 → e.tick = (.ok .completed, { e with
          index := Program.sentinel
          stepsExecuted := e.stepsExecuted + 1 })) := by
  obtain ⟨hlinked, -⟩ := linked_of_resolve h
  have hbuilt := Program.built_of_resolve h
  subst hm
  have hentry : entry < m.program.size := by
    refine hlinked.targets m.index op hop entry ?_
    rcases hcall with rfl | rfl
    · exact List.mem_singleton_self entry
    · exact List.mem_singleton_self entry
  obtain ⟨k, doc, hdoc, hstart, hstop⟩ := hbuilt.inside entry hentry
  obtain ⟨j, hj, -, hend⟩ := hbuilt.ends k doc hdoc
  refine ⟨k, doc, m.entered name entry arg output, hdoc, hstart, hstop,
    tick_skill name entry arg output m hop hcall, rfl, fun e hoff => ?_⟩
  have hindex : e.index = j := by
    have hoffIndex := hoff.index
    omega
  rw [← entered_program name entry arg output m, ← hoff.program, ← hindex] at hend
  constructor
  · intro hk
    rw [if_neg (Nat.ne_of_gt hk)] at hend
    exact tick_endSkill hend hoff
  · intro hk
    rw [if_pos hk] at hend
    exact tick_of_op? hend rfl

/-! ## A skill of a library -/

/-- A document that calls the skill of a library. -/
def borrowingDocument : SkillDocument where
  name := "main"
  header := .empty
  steps := [⟨"step 1", 1, "Use Skill", [("skill_path", .text "web"), ("skill_name", .text "cart")]⟩]

/-- The library with the skill that `borrowingDocument` calls. -/
def cartLibrary : SkillLibrary where
  skills := [("web/cart", ⟨"web/cart", .empty, [⟨"step 1", 1, "Halt", []⟩]⟩)]

/-- The program of `borrowingDocument`. -/
def borrowingProgram : Program where
  name := "main"
  skid := ""
  instructions :=
    #[⟨⟨"main", 1, false⟩, .useSkill "web/cart" 2 "" ""⟩, ⟨⟨"main", 1, true⟩, .finish⟩,
      ⟨⟨"web/cart", 1, false⟩, .action "Halt" []⟩,
      ⟨⟨"web/cart", 1, true⟩, .stub (.endSkill "web/cart")⟩]
  functions := []
  skills := [("main", 0), ("web/cart", 2)]
  handlers := []
  documents := [⟨"main", 0, 2⟩, ⟨"web/cart", 2, 4⟩]

theorem resolve_borrowingDocument :
    resolve borrowingDocument cartLibrary = .ok borrowingProgram :=
  resolve_of_sorted rfl (by decide) (by decide) (by decide)

/-- A mission that is about to call the skill. -/
def borrowingMission : Mission := .initial borrowingProgram (.plain 0 .empty) RunConfig.usual

theorem called_skill_returns_borrowing :
    ∃ after, ({ borrowingMission.tick.2 with index := 3 } : Mission).tick = (.ok .completed, after) ∧
      after.index = 1 ∧ after.calls = .empty ∧ after.skills = .empty := by
  obtain ⟨k, doc, inside, hdoc, hstart, hstop, htick, -, hback⟩ :=
    called_skill_returns resolve_borrowingDocument (m := borrowingMission) rfl rfl (.inl rfl)
  obtain rfl : borrowingMission.tick.2 = inside := congrArg Prod.snd htick
  obtain ⟨rfl, rfl⟩ : k = 1 ∧ doc = ⟨"web/cart", 2, 4⟩ := by
    match k with
    | 0 =>
      cases hdoc
      exact absurd hstop (by decide)
    | 1 => exact ⟨rfl, (Option.some.inj hdoc).symm⟩
    | k + 2 => cases hdoc
  obtain ⟨after, hafter, hrestored⟩ :=
    (hback { borrowingMission.tick.2 with index := 3 } ⟨rfl, rfl, rfl, rfl⟩).1 Nat.one_pos
  exact ⟨after, hafter, hrestored.index, hrestored.calls, hrestored.skills⟩

/-! ## A main document that calls itself -/

/-- A document that calls itself once. -/
def nestingDocument : SkillDocument where
  name := "main"
  header := .empty
  steps := [⟨"step 1", 1, "Check Condition", [("condition", .text "not deep")]⟩,
    ⟨"step 2", 2, "Create Data", [("data_name", .text "deep"), ("key_value", .bool true)]⟩,
    ⟨"step 3", 3, "Use Skill", [("skill_name", .text "main")]⟩,
    ⟨"step 4", 4, "Stub", [("stub_name", .text "end condition")]⟩]

/-- The program of `nestingDocument`. -/
def nestingProgram : Program where
  name := "main"
  skid := ""
  instructions :=
    #[⟨⟨"main", 1, false⟩, .checkCondition "not deep" 4 4⟩,
      ⟨⟨"main", 2, false⟩, .action "Create Data"
        [("data_name", .text "deep"), ("key_value", .bool true)]⟩,
      ⟨⟨"main", 3, false⟩, .useSkill "main" 0 "" ""⟩,
      ⟨⟨"main", 4, false⟩, .goto 4 none⟩, ⟨⟨"main", 4, true⟩, .finish⟩]
  functions := []
  skills := [("main", 0)]
  handlers := []
  documents := [⟨"main", 0, 5⟩]

theorem resolve_nestingDocument : resolve nestingDocument .empty = .ok nestingProgram :=
  resolve_of_sorted rfl (by decide) (by decide) (by decide)

/-- A mission that is about to call its own main document. -/
def nestingMission : Mission :=
  { Mission.initial nestingProgram (.plain 0 .empty) RunConfig.usual with index := 2 }

/-- Not every skill that is called comes back: a main document that was called ends the program. -/
theorem not_called_main_returns :
    ¬∀ (main : SkillDocument) (library : SkillLibrary) (p : Program), resolve main library = .ok p →
      ∀ m : Mission, m.program = p → ∀ name entry arg output,
      p.op? m.index = some (.useSkill name entry arg output) → ∀ doc ∈ p.documents,
      doc.start ≤ entry → entry < doc.stop → ∀ e, RunsOff doc m.tick.2 e →
      ∃ after, e.tick = (.ok .completed, after) ∧ after.index = m.index + 1 ∧
        after.calls = m.calls ∧ after.skills = m.skills := by
  intro h
  obtain ⟨after, htick, hindex, -, -⟩ := h _ _ _ resolve_nestingDocument nestingMission rfl _ _ _ _ rfl
    ⟨"main", 0, 5⟩ (List.mem_singleton_self _) (Nat.le_refl 0) (by decide)
    { nestingMission.tick.2 with index := 4 } ⟨rfl, rfl, rfl, rfl⟩
  have hend : after.index = Program.sentinel :=
    congrArg (fun r : Except SkillFault StepStatus × Mission => r.2.index) htick.symm
  rw [hindex] at hend
  exact absurd hend (by decide)

end Mission

end Deskhand
