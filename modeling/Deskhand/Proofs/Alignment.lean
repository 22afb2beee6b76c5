import Deskhand.Proofs.Stacks

/-!
# Stack alignment

In every state of a run the stacks are `Aligned`. Hence a return always finds a whole frame or an
empty stack, and a step can only end the run by a structural fault if a `Return` or the end of a
function is executed where nothing was called (`Mission.StackSafe`). A run that completes leaves both
stacks empty.

Every other step has an outcome of its own: the steps of control cannot abort, and an action is known
by its name, since the program was resolved and the mission could be made of it.
-/

namespace Deskhand

/-! ## Actions are known -/

/-- Every other built-in step type has an action. -/
theorem builtinAction_isSome :
    ∀ kind ∈ builtinStepTypes, kind ∈ controlStepTypes ∨ (builtinAction? kind).isSome := by
  decide

/-- The operation is no action under the name of a step of control. -/
def Op.Genuine : Op → Prop
  | action kind _ => kind ∉ controlStepTypes
  | _ => True

theorem code_genuine (document : Nat) (s : RawStep) (c : StepCode)
    (h : s.code document = .ok c) : (∀ op ∈ c.setup, op.Genuine) ∧ c.op.Genuine := by
  cases coded h with
  | loop guard count counter =>
    refine ⟨fun op hop => ?_, trivial⟩
    change op ∈ (if Text.isBlankText guard then _ else none) at hop
    split at hop
    · cases hop
      exact (by decide : "Fill Data" ∉ controlStepTypes)
    · cases hop
  | action hkind => exact ⟨nofun, hkind⟩
  | _ => exact ⟨nofun, trivial⟩

theorem genuine_of_resolve {main : SkillDocument} {library : SkillLibrary} {p : Program}
    (h : resolve main library = .ok p) {i : Instruction} (hi : i ∈ p.instructions) :
    i.op.Genuine := by
  refine all_of_resolve ⟨?_, ?_, ?_, ?_⟩ ?_ ?_ code_genuine trivial (fun _ => trivial) h hi
  · exact fun _ _ => trivial
  · intro j target op _ hop
    cases op <;> exact hop
  · intro j target op _ hop
    cases op <;> exact hop
  · intro j target op _ hop
    cases op <;> exact hop
  · intro target param op hop
    cases op <;> exact hop
  · intro target op hop
    cases op <;> exact hop

namespace Mission

/-- Whoever runs a resolved program knows its actions. -/
theorem Begins.action_known {main : SkillDocument} {library : SkillLibrary} {p : Program}
    (hp : resolve main library = .ok p) {m : Mission} (hm : m.Begins p) {i : Instruction}
    (hi : i ∈ p.instructions) {kind : String} {args : Entries Value}
    (hop : i.op = .action kind args) : (action? m.world.external kind args).isSome := by
  obtain ⟨world, config, t, hu, rfl⟩ := hm.eq_initial
  have hgenuine := genuine_of_resolve hp hi
  have hfound := List.find?_eq_none.1 hu i (Array.mem_toList_iff.2 hi)
  rw [hop] at hgenuine hfound
  unfold action?
  cases hb : builtinAction? kind with
  | some act => rfl
  | none =>
    have hext : world.external.has kind := by
      cases hk : builtinStepTypes.contains kind with
      | true =>
        rcases builtinAction_isSome kind (List.contains_iff_mem.1 hk) with hc | hs
        · exact absurd hc hgenuine
        · rw [hb] at hs
          cases hs
      | false =>
        simpa only [hk, Bool.not_false, Bool.true_and, Bool.not_eq_true', Bool.not_eq_false]
          using hfound
    change ((world.external.get? kind).map _).isSome
    rw [Option.isSome_map]
    exact hext

/-! ## Which steps can abort -/

theorem follow_ne_aborted (step : StepM Nat) (fault : SkillFault) (m : Mission) :
    (m.follow step).1 ≠ .aborted fault := by
  unfold follow
  split <;> nofun

theorem handleException_ne_aborted (args : HandlerArgs) (stop : Nat) (fault : SkillFault)
    (m : Mission) : (m.handleException args stop).1 ≠ .aborted fault := by
  unfold handleException
  dsimp only
  split
  · nofun
  · split
    · split <;> nofun
    · nofun

theorem endException_ne_aborted (fault : SkillFault) (m : Mission) :
    m.endException.1 ≠ .aborted fault := by
  unfold endException
  split
  · nofun
  · split <;> nofun

/-- A return from aligned stacks goes on behind the call, if there was one. -/
theorem leave_outcome {m : Mission} (h : Aligned m.calls m.skills) (v : Value) :
    m.calls = .empty ∨ ∃ f rest, m.calls = CallStack.onto f rest ∧
      (m.leave v).1 = .next f.returnTo := by
  rcases h.popFrame with hc | ⟨f, rest, hc, hp⟩
  · exact .inl hc
  · refine .inr ⟨f, rest, hc, ?_⟩
    rw [leave_eq, hp]

/-- With aligned stacks, only a return from where nothing was called ends the run. -/
theorem perform_aborted {op : Op} {m : Mission} {fault : SkillFault}
    (halign : Aligned m.calls m.skills)
    (hknown : ∀ kind args, op = .action kind args → (action? m.world.external kind args).isSome)
    (h : (m.perform op).1 = .aborted fault) :
    m.calls = .empty ∧ ((∃ source, op = .giveBack source) ∨ ∃ name, op = .stub (.endFunction name))
    := by
  have hleave : ∀ v (m' : Mission), m'.calls = m.calls → m'.skills = m.skills →
      (m'.leave v).1 = .aborted fault → m.calls = .empty := by
    intro v m' hc hs hv
    rw [← hc, ← hs] at halign
    rcases leave_outcome halign v with he | ⟨f, rest, -, hn⟩
    · rw [← hc, he]
    · rw [hn] at hv
      cases hv
  cases op with
  | checkCondition condition ifElse ifEnd => exact absurd h (follow_ne_aborted _ _ m)
  | loop guard count counter stop => exact absurd h (follow_ne_aborted _ _ m)
  | goto target increment => cases increment <;> cases h
  | stub kind =>
    change (m.passStub kind).1 = _ at h
    unfold passStub at h
    split at h
    · next name => exact ⟨hleave _ m rfl rfl h, .inr ⟨name, rfl⟩⟩
    · split at h
      · cases h
      · next hs =>
        have he := hleave _ m rfl rfl h
        exact absurd he (halign.ne_empty (Bool.eq_false_iff.2 hs))
    · cases h
  | callFunction name entry param arg output => cases h
  | giveBack source =>
    refine ⟨?_, .inl ⟨source, rfl⟩⟩
    change (m.giveBack source).1 = _ at h
    rw [giveBack_eq] at h
    split at h
    · exact hleave _ m rfl rfl h
    · split at h
      · next t v _ => exact hleave v (m.setSymbols t) rfl rfl h
      · cases h
  | useSkill name entry arg output => cases h
  | overloadSkill name entry arg output => cases h
  | exceptionHandler args stop => exact absurd h (handleException_ne_aborted args stop fault m)
  | endException => exact absurd h (endException_ne_aborted fault m)
  | finish => cases h
  | action kind args =>
    change (m.doAction kind args).1 = _ at h
    unfold doAction at h
    split at h
    · next hnone =>
      have hsome := hknown kind args rfl
      rw [hnone] at hsome
      cases hsome
    · exact absurd h (follow_ne_aborted _ _ m)

/-! ## Every state of a run -/

/-- A report of completion is given only if no call is under way. -/
theorem report_completed {m : Mission} {cancelled : Bool} {report : MissionReport}
    (h : m.report cancelled = .ok report) (hstatus : report.status = .completed) :
    m.calls.isEmpty = true := by
  unfold Mission.report at h
  dsimp only at h
  generalize (if cancelled then MissionStatus.cancelled
    else if m.symbols.flag Reserved.missionFailed then .failed else .completed) = status at h
  split at h
  · cases h
  · next hcond =>
    cases h
    by_contra hne
    exact hcond ⟨hstatus, by rw [Bool.eq_false_iff.2 hne]; rfl⟩

/-- The stacks are in order, whatever the next turn is. -/
structure StackSafe (m : Mission) : Prop where
  aligned : Aligned m.calls m.skills
  /-- A step ends the run only if it returns from where nothing was called. -/
  aborted : ∀ fault, m.turn.1 = .aborted fault → ∃ r i, m.boundary = .ready r ∧
    r.program.instructions[r.index]? = some i ∧ r.calls = .empty ∧
    ((∃ source, i.op = .giveBack source) ∨ ∃ name, i.op = .stub (.endFunction name))
  /-- Taking a frame off never stops inside a frame. -/
  popped : m.calls = .empty ∧ m.calls.popFrame = (.empty, none) ∨
    ∃ f rest, m.calls = CallStack.onto f rest ∧ m.calls.popFrame = (rest, some f)
  /-- The end of a skill in a running skill returns. -/
  endSkill : ∀ r name, m.boundary = .ready r → r.skills.isEmpty = false →
    ∃ f rest, r.calls = CallStack.onto f rest ∧
      (r.perform (.stub (.endSkill name))).1 = .next f.returnTo

theorem stackSafe_of_aligned {m : Mission} (h : Aligned m.calls m.skills)
    (hknown : ∀ i ∈ m.program.instructions, ∀ kind args, i.op = .action kind args →
      (action? m.world.external kind args).isSome) : m.StackSafe where
  aligned := h
  aborted := by
    intro fault hfault
    rw [turn_eq] at hfault
    cases hb : m.boundary with
    | ready r =>
      rw [hb] at hfault
      have hstacks := ready_stacks hb
      have hsame := ready_sameRun hb
      obtain ⟨i, hi, hp⟩ := step_aborted hfault
      have hmem : i ∈ m.program.instructions := hsame.program ▸ Array.mem_of_getElem? hi
      have hr := perform_aborted (hstacks.aligned h)
        (fun kind args hop => hsame.external ▸ hknown i hmem kind args hop) hp
      exact ⟨r, i, rfl, hi, hr⟩
    | _ =>
      rw [hb] at hfault
      cases hfault
  popped := by
    rcases h.popFrame with hc | hc
    · exact .inl ⟨hc, by rw [hc, CallStack.popFrame_empty]⟩
    · exact .inr hc
  endSkill := by
    intro r name hb hr
    replace h := (ready_stacks hb).aligned h
    rcases leave_outcome h (r.symbols.value Reserved.fout) with he | ⟨f, rest, hc, hn⟩
    · exact absurd he (h.ne_empty hr)
    · refine ⟨f, rest, hc, ?_⟩
      change (if r.skills.isEmpty then _ else r.leave _).1 = _
      rw [hr]
      exact hn

/-- Stack alignment over whole runs: every state of a run of a resolved program is `StackSafe`, and
a run that completes leaves both stacks empty. -/
theorem run_stackSafe {main : SkillDocument} {library : SkillLibrary} {p : Program}
    (hp : resolve main library = .ok p) {m : Mission} (hm : m.Begins p) :
    (∀ n, (m.after n).StackSafe) ∧
    ∀ fuel report final, m.run fuel = some (.ok report, final) → report.status = .completed →
      final.calls.isEmpty = true ∧ final.skills.isEmpty = true := by
  constructor
  · intro n
    have hsame := m.after_sameRun n
    refine stackSafe_of_aligned (after_stacked hm n).aligned fun i hi kind args hop => ?_
    rw [hsame.external]
    rw [hsame.program, hm.program] at hi
    exact hm.action_known hp hi hop
  · intro fuel report final hrun hstatus
    obtain ⟨n, ⟨cancelled, hturn, hreport⟩ | ⟨fault, hturn, hreport⟩⟩ := run_eq_some hrun
    · have hfinal : final = m.after (n + 1) := by rw [after_succ, hturn]
      have halign := (after_stacked hm (n + 1)).aligned
      rw [← hfinal] at halign
      have hcalls := report_completed hreport.symm hstatus
      exact ⟨hcalls, halign.skills_isEmpty hcalls⟩
    · cases hreport

/-- A document that defines a function and calls it. -/
def callingDocument : SkillDocument where
  name := "main"
  header := .empty
  steps :=
    [⟨"step 1", 1, "Stub", [("stub_name", .text "start function"), ("func_name", .text "f")]⟩,
      ⟨"step 2", 2, "Halt", []⟩,
      ⟨"step 3", 3, "Stub", [("stub_name", .text "end function"), ("func_name", .text "f")]⟩,
      ⟨"step 4", 4, "Call Function", [("fname", .text "f"), ("output", .text "r")]⟩]

/-- The program of `callingDocument`. -/
def callingProgram : Program where
  name := "main"
  skid := ""
  instructions := #[⟨⟨"main", 1, false⟩, .goto 3 none⟩, ⟨⟨"main", 2, false⟩, .action "Halt" []⟩,
    ⟨⟨"main", 3, false⟩, .stub (.endFunction "f")⟩,
    ⟨⟨"main", 4, false⟩, .callFunction "f" 1 "" "" "r"⟩, ⟨⟨"main", 4, true⟩, .finish⟩]
  functions := [("f", 1)]
  skills := [("main", 0)]
  handlers := []
  documents := [⟨"main", 0, 5⟩]

theorem resolve_callingDocument : resolve callingDocument .empty = .ok callingProgram :=
  resolve_of_sorted rfl (by decide) (by decide) (by decide)

/-- The mission of `callingProgram` in a world where nothing happens. -/
def callingMission : Mission := initial callingProgram (.plain 0 .empty) .usual

theorem callingMission_begins : callingMission.Begins callingProgram :=
  ⟨.plain 0 .empty, .usual, callingMission, callingMission.symbols, rfl, rfl⟩

theorem run_stackSafe_calling : (∀ n, (callingMission.after n).StackSafe) ∧
    ∀ fuel report final, callingMission.run fuel = some (.ok report, final) →
      report.status = .completed → final.calls.isEmpty = true ∧ final.skills.isEmpty = true :=
  run_stackSafe resolve_callingDocument callingMission_begins

end Mission

end Deskhand
