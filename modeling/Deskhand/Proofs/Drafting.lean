import Deskhand.Proofs.Documents

/-!
# The code of a draft

What stands in a draft before it is linked: every open reference belongs to an instruction that takes
it, ahead of every counted loop its counter is set to zero, and every document ends with an
instruction of its own (`Draft.Drafted`).
-/

namespace Deskhand

/-- The reference that the code of a step brings with it is one that its instruction takes. -/
theorem takes_of_code {document : Nat} {s : RawStep} {c : StepCode} {refers : Reference}
    (h : s.code document = .ok c) (hrefers : c.refers = some refers) : c.op.Takes refers := by
  cases coded h with
  | goto text =>
    cases hrefers
    exact .goto _ _ _
  | callFunction name arg output =>
    cases hrefers
    exact .callFunction _ _ _ _ _ _
  | useSkill key arg output =>
    cases hrefers
    exact .useSkill _ _ _ _ _
  | overloadSkill key arg output =>
    cases hrefers
    exact .overloadSkill _ _ _ _ _
  | _ => cases hrefers

/-- The code of a counted loop sets its counter to zero first. -/
theorem setup_of_code {document : Nat} {s : RawStep} {c : StepCode} {guard count counter : String}
    {stop : Nat} (h : s.code document = .ok c) (hop : c.op = .loop guard count counter stop)
    (hguard : Text.isBlankText guard = true) : c.setup = some (RawStep.resetCounter counter) := by
  cases coded h with
  | loop guard' count' counter' =>
    cases hop
    exact if_pos hguard
  | _ => cases hop

namespace Draft

/-- What stands in a draft that is not linked yet. -/
structure Drafted (d : Draft) : Prop where
  references : ∀ r ∈ d.references, ∃ op, d.op? r.index = some op ∧ op.Takes r.refers
  resets : ∀ j guard count counter stop, d.op? j = some (.loop guard count counter stop) →
    Text.isBlankText guard = true → ∃ i, i + 1 = j ∧ d.op? i = some (RawStep.resetCounter counter)
  ends : ∀ (k : Nat) (sec : Section), d.sections[k]? = some sec → ∃ j, j + 1 = sec.span.stop ∧
    sec.span.start ≤ j ∧ d.op? j = some (if k = 0 then .finish else .stub (.endSkill sec.span.name))

theorem Drafted.empty : Draft.empty.Drafted where
  references := nofun
  resets _ _ _ _ _ h := by cases h
  ends _ _ h := by cases h

/-- An instruction that is added leaves the others as they are. -/
theorem op?_push_of_op? (i : Instruction) {d : Draft} {j : Nat} {op : Op} (h : d.op? j = some op) :
    (d.push i).op? j = some op := by
  rw [op?_push, if_neg (Nat.ne_of_lt (lt_size_of_op? h)), h]

theorem op?_push_self (i : Instruction) (d : Draft) : (d.push i).op? d.size = some i.op := by
  rw [op?_push, if_pos rfl]

theorem Drafted.push {d : Draft} (hd : d.Drafted) {i : Instruction}
    (hi : ∀ guard count counter stop, i.op = .loop guard count counter stop →
      Text.isBlankText guard = true →
      ∃ j, j + 1 = d.size ∧ d.op? j = some (RawStep.resetCounter counter)) :
    (d.push i).Drafted where
  references r hr := by
    obtain ⟨op, hop, htakes⟩ := hd.references r hr
    exact ⟨op, op?_push_of_op? i hop, htakes⟩
  resets j guard count counter stop hop hguard := by
    have hahead : ∃ k, k + 1 = j ∧ d.op? k = some (RawStep.resetCounter counter) := by
      rw [op?_push] at hop
      split at hop
      · next hlast =>
        rw [hlast]
        exact hi guard count counter stop (Option.some.inj hop) hguard
      · exact hd.resets j guard count counter stop hop hguard
    obtain ⟨k, hk, hreset⟩ := hahead
    exact ⟨k, hk, op?_push_of_op? i hreset⟩
  ends k sec hk := by
    obtain ⟨j, hj, hle, hop⟩ := hd.ends k sec hk
    exact ⟨j, hj, hle, op?_push_of_op? i hop⟩

theorem pushCode_drafted {d : Draft} (hd : d.Drafted) (name : String) (document number : Nat)
    {s : RawStep} {c : StepCode} (h : s.code document = .ok c) :
    (d.pushCode name document number c).Drafted := by
  obtain ⟨refs, handlers, heq, hrefs, -⟩ := pushCode_eq name document number c d
  have hfirst : (d.setUp name number c).Drafted := by
    unfold setUp
    split
    · next op hsetup =>
      obtain ⟨kind, args, rfl⟩ := (code_refers h).setup op (by rw [hsetup]; rfl)
      exact hd.push nofun
    · exact hd
  have hreset : ∀ guard count counter stop, c.op = .loop guard count counter stop →
      Text.isBlankText guard = true → ∃ j, j + 1 = (d.setUp name number c).size ∧
        (d.setUp name number c).op? j = some (RawStep.resetCounter counter) := by
    intro guard count counter stop hop hguard
    have hsetup := setup_of_code h hop hguard
    unfold setUp
    rw [hsetup]
    exact ⟨d.size, (size_push _ _).symm, op?_push_self _ d⟩
  rw [heq]
  generalize d.setUp name number c = e at *
  have hcode := hfirst.push (i := ⟨⟨name, number, false⟩, c.op⟩) hreset
  refine ⟨fun r hr => ?_, hcode.resets, hcode.ends⟩
  rcases hrefs with ⟨-, rfl⟩ | ⟨refers, hrefers, rfl⟩
  · exact hcode.references r hr
  · rcases List.mem_append.1 hr with hr | hr
    · exact hcode.references r hr
    · obtain rfl := List.mem_singleton.1 hr
      exact ⟨c.op, op?_push_self _ e, takes_of_code h hrefers⟩

theorem pushSteps_drafted (name : String) (document : Nat) (steps : List RawStep) {d d' : Draft}
    {table : List (Nat × Nat)} {keys : List String} (hd : d.Drafted)
    (h : pushSteps name document steps d = .ok (d', table, keys)) : d'.Drafted := by
  induction steps generalizing d d' table keys with
  | nil =>
    cases h
    exact hd
  | cons s rest ih =>
    obtain ⟨c, hc, h⟩ := bind_eq_ok h
    obtain ⟨⟨after, steps, keys'⟩, hrest, h⟩ := bind_eq_ok h
    cases h
    exact ih (pushCode_drafted hd name document s.number hc) hrest

theorem pushDocument_drafted {doc : SkillDocument} {last : Op} {d d' : Draft} {keys : List String}
    (hsound : d.Sound) (hd : d.Drafted)
    (hlast : last = if d.sections.size = 0 then .finish else .stub (.endSkill doc.name))
    (h : d.pushDocument doc last = .ok (d', keys)) :
    d'.Drafted ∧ d'.sections.size = d.sections.size + 1 := by
  obtain ⟨⟨e, steps, keys'⟩, he, h⟩ := bind_eq_ok h
  have hsteps := pushSteps_drafted _ _ _ hd he
  obtain ⟨hgrown, -⟩ := pushSteps_grown _ _ _ hsound he
  cases h
  have hnoLoop : ∀ guard count counter stop, last ≠ .loop guard count counter stop := by
    intro guard count counter stop
    rw [hlast]
    split <;> nofun
  have hpush := hsteps.push (i := ⟨⟨doc.name, (doc.steps.getLast?.map (·.number)).getD 0, true⟩, last⟩)
    fun guard count counter stop hop => absurd hop (hnoLoop guard count counter stop)
  have hsections := hgrown.sections
  refine ⟨⟨hpush.references, hpush.resets, fun k sec hk => ?_⟩, ?_⟩
  · change (e.sections.push _)[k]? = some sec at hk
    rw [Array.getElem?_push] at hk
    split at hk
    · next hk' =>
      cases hk
      refine ⟨e.size, (size_push _ _).symm, hgrown.size, ?_⟩
      change (e.push _).op? e.size = _
      rw [op?_push_self, hlast, hk', hsections]
    · exact hpush.ends k sec hk
  · change (e.sections.push _).size = _
    rw [Array.size_push, hsections]

/-- The documents of a program are drafted one after another, the main one first. -/
theorem ofDocuments_drafted {main : SkillDocument} {library : SkillLibrary} {d : Draft}
    (h : ofDocuments main library = .ok d) : d.Drafted := by
  refine (ofDocuments_keeps_laid (Q := fun d => d.Drafted ∧ 0 < d.sections.size) ?_ ?_ ?_ h).2.1
  · intro d keys h
    obtain ⟨hdrafted, hsize⟩ := pushDocument_drafted .empty .empty rfl h
    exact ⟨hdrafted, hsize ▸ Nat.succ_pos _⟩
  · intro doc d d' keys hsound hd h
    obtain ⟨hdrafted, hsize⟩ :=
      pushDocument_drafted hsound hd.1 (if_neg (Nat.ne_of_gt hd.2)).symm h
    exact ⟨hdrafted, hsize ▸ Nat.succ_pos _⟩
  · exact fun d name index hd => ⟨⟨hd.1.references, hd.1.resets, hd.1.ends⟩, hd.2⟩

end Draft

end Deskhand
