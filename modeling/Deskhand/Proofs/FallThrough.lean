import Deskhand.Proofs.Rollback

/-!
# Actions fall through

Whatever an action is given and however it comes out, the step behind it comes next, and of the control
state nothing else moves (`Mission.action_falls_through`). What it may do to the mission variables, the
rollback points and the open exceptions depends on its step type only, and it does the last two at its
end: until then it is made of changes that keep them (`Workspace.Appends`).
-/

namespace Deskhand

open Relation (ReflTransGen)

namespace Workspace

/-- The rollback points and the open exceptions are the same, and no more than one name has become a
mission variable, the last of them. -/
structure Appends (name? : Option String) (w w' : Workspace) : Prop where
  pages : w'.recovery.pages = w.recovery.pages
  exceptions : w'.recovery.exceptions = w.recovery.exceptions
  missionVars : w'.symbols.missionVars = w.symbols.missionVars ∨
    ∃ name ∈ name?, name ∉ w.symbols.missionVars ∧
      w'.symbols.missionVars = w.symbols.missionVars ++ [name]

namespace Appends

variable {name? : Option String} {w w' w'' : Workspace}

theorem refl (w : Workspace) : w.Appends name? w := ⟨rfl, rfl, .inl rfl⟩

theorem trans (h : w.Appends name? w') (h' : w'.Appends name? w'') : w.Appends name? w'' := by
  refine ⟨h'.pages.trans h.pages, h'.exceptions.trans h.exceptions, ?_⟩
  rcases h.missionVars with hsame | ⟨name, hname, hnew, happ⟩
  · have hlater := h'.missionVars
    rw [hsame] at hlater
    exact hlater
  · rcases h'.missionVars with hsame | ⟨other, hother, hfresh, -⟩
    · exact .inr ⟨name, hname, hnew, hsame.trans happ⟩
    · -- the name is there by now
      obtain rfl : name = other := Option.some.inj (hname.symm.trans hother)
      rw [happ] at hfresh
      exact absurd (List.mem_append_right _ (List.mem_singleton_self _)) hfresh

theorem of_changes (h : ReflTransGen (Appends name?) w w') : w.Appends name? w' := by
  induction h with
  | refl => exact .refl w
  | tail _ hlast ih => exact ih.trans hlast

end Appends

instance (name? : Option String) : Admits fun _ => Appends name? :=
  ⟨fun h => ⟨rfl, rfl, .inl h.missionVars⟩, fun _ => ⟨rfl, rfl, .inl rfl⟩⟩

theorem admitsDeclare_appends {name : String} {name? : Option String} (h : name ∈ name?) :
    AdmitsDeclare (fun _ => Appends name?) name := by
  refine ⟨fun {_ w} v => ⟨rfl, rfl, ?_⟩⟩
  by_cases hmem : name ∈ w.symbols.missionVars
  · exact .inl (if_pos hmem)
  · exact .inr ⟨name, h, hmem, if_neg hmem⟩

end Workspace

namespace Mission

open Workspace (Appends)

/-- What an action of some type may have done when its step came out so: `m` is the mission at the
step, `after` the one behind it. -/
structure FallsThrough (kind : String) (args : Entries Value) (m : Mission) (status : StepStatus)
    (after : Mission) : Prop where
  index : after.index = m.index + 1
  program : after.program = m.program
  calls : after.calls = m.calls
  skills : after.skills = m.skills
  handling : after.handling = m.handling
  missionVars : after.symbols.missionVars = m.symbols.missionVars ∨
    ∃ name, (kind = "Create Data" ∨ kind = "Load Data") ∧
      name = Text.trim (args.text "data_name") ∧ name ∉ m.symbols.missionVars ∧
        after.symbols.missionVars = m.symbols.missionVars ++ [name]
  pages : after.recovery.pages = m.recovery.pages ∨
    status = .completed ∧ kind ∈ ["Mouse Click", "Key Input", "Text Input", "Search Scroll"] ∧
      after.recovery.pages = m.recovery.pages.push ⟨m.index + 1, after.symbols.snapshot⟩
  recorded : status = .completed → kind ∈ ["Mouse Click", "Key Input", "Text Input"] →
    after.recovery.pages = m.recovery.pages.push ⟨m.index + 1, after.symbols.snapshot⟩
  exceptions : after.recovery.exceptions = m.recovery.exceptions ∨
    kind ∈ ["Search", "Search Anchor Info"] ∧
      ∃ e : ExceptionDescriptor, e.raisedAt = m.index ∧
        after.recovery.exceptions = e :: m.recovery.exceptions

/-- Which actions put down a rollback point, may put one down, or may raise an exception. -/
theorem closingOf_cases (kind : String) :
    closingOf kind = .recording true ∧ kind ∈ ["Mouse Click", "Key Input", "Text Input"] ∨
    closingOf kind = .recording false ∧ kind = "Search Scroll" ∨
    closingOf kind = .raising ∧ kind ∈ ["Search", "Search Anchor Info"] ∨
    closingOf kind = .none ∧ kind ∉ ["Mouse Click", "Key Input", "Text Input"] := by
  by_cases hrecords : kind ∈ ["Mouse Click", "Key Input", "Text Input"]
  · refine .inl ⟨?_, hrecords⟩
    simp only [List.mem_cons, List.not_mem_nil, or_false] at hrecords
    rcases hrecords with rfl | rfl | rfl <;> rfl
  · by_cases hscroll : kind = "Search Scroll"
    · exact .inr (.inl ⟨hscroll ▸ rfl, hscroll⟩)
    · by_cases hsearch : kind ∈ ["Search", "Search Anchor Info"]
      · refine .inr (.inr (.inl ⟨?_, hsearch⟩))
        simp only [List.mem_cons, List.not_mem_nil, or_false] at hsearch
        rcases hsearch with rfl | rfl <;> rfl
      · refine .inr (.inr (.inr ⟨?_, hrecords⟩))
        unfold closingOf
        split
        · simp at hrecords
        · simp at hrecords
        · simp at hrecords
        · exact absurd rfl hscroll
        · simp at hsearch
        · simp at hsearch
        · rfl

theorem kind_of_declaredBy? {args : Entries Value} {kind name : String}
    (h : name ∈ declaredBy? args kind) :
    (kind = "Create Data" ∨ kind = "Load Data") ∧ name = Text.trim (args.text "data_name") := by
  unfold declaredBy? at h
  split at h
  · cases h
    exact ⟨.inl rfl, rfl⟩
  · cases h
    exact ⟨.inr rfl, rfl⟩
  · cases h

theorem action?_eq_some {external : Entries ExternalOp} {kind : String}
    (h : (builtinAction? kind).isSome ∨ external.has kind) (args : Entries Value) :
    ∃ act, action? external kind args = some act := by
  unfold action?
  cases hb : builtinAction? kind with
  | some act => exact ⟨act args, rfl⟩
  | none =>
    rcases h with h | h
    · rw [hb] at h
      cases h
    · obtain ⟨op, hop⟩ := Option.isSome_iff_exists.1 h
      exact ⟨runExternal op args, by rw [hop]; rfl⟩

section Action

variable {m : Mission} {kind : String} {args : Entries Value}

/-- An action that ends so falls through. -/
theorem fallsThrough_of_closes {r : Except Failure Unit} {w work : Workspace} {status : StepStatus}
    {steps : Nat} {error : Option String} (hw : m.work.Appends (declaredBy? args kind) w)
    (hend : w.Closes ⟨m.config, m.index⟩ (closingOf kind) r work)
    (hstatus : status = .completed ↔ ∃ a, r = .ok a) :
    FallsThrough kind args m status
      { m with work, index := m.index + 1, stepsExecuted := steps, lastError := error } := by
  have hvars : w.symbols.missionVars = m.symbols.missionVars ∨
      ∃ name, (kind = "Create Data" ∨ kind = "Load Data") ∧
        name = Text.trim (args.text "data_name") ∧ name ∉ m.symbols.missionVars ∧
          w.symbols.missionVars = m.symbols.missionVars ++ [name] := by
    rcases hw.missionVars with hsame | ⟨name, hname, hnew, happ⟩
    · exact .inl hsame
    · obtain ⟨hkind, hread⟩ := kind_of_declaredBy? hname
      exact .inr ⟨name, hkind, hread, hnew, happ⟩
  generalize hk : closingOf kind = k at hend
  cases hend with
  | failed failure =>
    refine ⟨rfl, rfl, rfl, rfl, rfl, hvars, .inl hw.pages, fun hdone => ?_, .inl hw.exceptions⟩
    obtain ⟨a, ha⟩ := hstatus.1 hdone
    cases ha
  | quiet a hquiet =>
    refine ⟨rfl, rfl, rfl, rfl, rfl, hvars, .inl hw.pages, fun _ hkind => ?_, .inl hw.exceptions⟩
    rcases closingOf_cases kind with ⟨hc, -⟩ | ⟨-, rfl⟩ | ⟨-, hsearch⟩ | ⟨-, hother⟩
    · exact absurd (hk.symm.trans hc) hquiet
    · simp at hkind
    · simp only [List.mem_cons, List.not_mem_nil, or_false] at hsearch
      rcases hsearch with rfl | rfl <;> simp at hkind
    · exact absurd hkind hother
  | @recorded always a =>
    have hpages : (w.recorded ⟨m.config, m.index⟩).recovery.pages =
        m.recovery.pages.push ⟨m.index + 1, w.symbols.snapshot⟩ :=
      congrArg (PageStack.push _) hw.pages
    have hdone : status = .completed := hstatus.2 ⟨a, rfl⟩
    refine ⟨rfl, rfl, rfl, rfl, rfl, hvars, .inr ⟨hdone, ?_, hpages⟩, fun _ _ => hpages,
      .inl hw.exceptions⟩
    rcases closingOf_cases kind with ⟨-, hkind⟩ | ⟨-, hkind⟩ | ⟨hc, -⟩ | ⟨hc, -⟩
    · simp only [List.mem_cons, List.not_mem_nil, or_false] at hkind
      rcases hkind with rfl | rfl | rfl <;> simp
    · rw [hkind]
      simp
    · cases hk.symm.trans hc
    · cases hk.symm.trans hc
  | @raised e a he =>
    rcases closingOf_cases kind with ⟨hc, -⟩ | ⟨hc, -⟩ | ⟨-, hkind⟩ | ⟨hc, -⟩
    · cases hk.symm.trans hc
    · cases hk.symm.trans hc
    · refine ⟨rfl, rfl, rfl, rfl, rfl, hvars, .inl hw.pages, fun _ hrecords => ?_,
        .inr ⟨hkind, e, he, congrArg (e :: ·) hw.exceptions⟩⟩
      simp only [List.mem_cons, List.not_mem_nil, or_false] at hkind
      rcases hkind with rfl | rfl <;> simp at hrecords
    · cases hk.symm.trans hc

end Action

end Mission

end Deskhand
