import Deskhand.Proofs.Linking

/-!
# Targets of a resolved program

Every transfer of control in a resolved program names an instruction, and no part of a construct is
left among its marks (`Program.Linked`): the documents are linked one after another, and then every
reference that was open is looked up.
-/

namespace Deskhand

/-- Linking leaves the documents where they are. -/
theorem LinkState.SameLayout.bounds {first d : Draft} (h : SameLayout first d)
    (hfirst : first.Laid) {k : Nat} {sec : Section} (hsec : d.sections[k]? = some sec) :
    k < first.sections.size ∧ sec.span.start = first.bound k ∧
      sec.span.stop = first.bound (k + 1) := by
  obtain ⟨sec₀, hsec₀, hspan⟩ := h.span k sec hsec
  have hstart : sec.span.start = first.bound k := by
    unfold Draft.bound
    rw [hspan, hsec₀]
  have hstop : sec.span.stop = first.bound (k + 1) := by
    rw [hspan]
    exact hfirst.next k sec₀ hsec₀
  exact ⟨(Array.getElem?_eq_some_iff.1 hsec₀).1, hstart, hstop⟩

namespace Draft

open LinkState

/-! ## Linking all documents -/

/-- What holds of a draft whose first documents are linked. -/
structure LinkedTo (first : Draft) (k : Nat) (d : Draft) : Prop where
  layout : SameLayout first d
  names : d.Names first.size
  jumps : d.All fun j op => op.Jumps first.size first.references j ∧ (j + 1 = first.size → op.Ends)
  matched : d.All fun j op => op.Matched first.size ∨ first.bound k ≤ j

theorem Laid.linkedTo {d : Draft} (h : d.Laid) : LinkedTo d 0 d where
  layout := .refl d
  names := h.sound.names
  jumps j op hj := ⟨h.sound.jumps j op hj, h.last j op hj⟩
  matched j op _ := .inr (by rw [h.first]; exact Nat.zero_le j)

theorem linkDocument_linkedTo {first d d' : Draft} {k : Nat} (hfirst : first.Laid)
    (hk : k < first.sections.size) (hd : LinkedTo first k d) (h : d.linkDocument k = .ok d') :
    LinkedTo first (k + 1) d' := by
  unfold linkDocument at h
  split at h
  · next hnone =>
    rw [← hd.layout.sections] at hk
    rw [Array.getElem?_eq_getElem hk] at hnone
    cases hnone
  · next sec hsec =>
    obtain ⟨s, hs, h⟩ := bind_eq_ok h
    obtain ⟨-, hstart, hstop⟩ := hd.layout.bounds hfirst hsec
    rw [hstart, hstop] at hs
    have hinit : Linking first.size (first.bound k) ⟨d, [], none⟩ := {
      length := hd.layout.size
      names := hd.names
      jumps := by
        rw [hd.layout.references]
        exact hd.jumps
      opened := fun _ => nofun
      provided := fun j op hj => (hd.matched j op hj).imp_right .inr }
    have hwithin := hfirst.within k
    have hwithin' := hfirst.within (k + 1)
    obtain ⟨hlinking, hlayout⟩ := visitFrom_linking _ (by omega) hinit hs
    have hclosed := close_eq h
    have hall := hd.layout.trans hlayout
    refine ⟨hclosed ▸ hall, hclosed ▸ hlinking.names, ?_, fun j op hj => ?_⟩
    · have hjumps := hlinking.jumps
      rw [hall.references] at hjumps
      rw [hclosed]
      exact hjumps
    · exact (close_matched hlinking h j op hj).imp_right fun hle => by omega

/-- Linking goes through the documents in order. -/
theorem link_induction {P : Nat → Draft → Prop} {first d : Draft} (hfirst : P 0 first)
    (hnext : ∀ k d d', k < first.sections.size → P k d → d.linkDocument k = .ok d' → P (k + 1) d')
    (h : first.link = .ok d) : P first.sections.size d := by
  have hrange : ∀ n ≤ first.sections.size, ∀ d,
      (List.range n).foldlM (fun d document => d.linkDocument document) first = .ok d → P n d := by
    intro n
    induction n with
    | zero =>
      intro _ d h
      cases h
      exact hfirst
    | succ n ih =>
      intro hn d h
      rw [List.range_succ, List.foldlM_append] at h
      obtain ⟨d₁, h₁, h⟩ := bind_eq_ok h
      obtain ⟨d₂, h₂, h⟩ := bind_eq_ok h
      cases h
      exact hnext n d₁ _ hn (ih (Nat.le_of_succ_le hn) d₁ h₁) h₂
  exact hrange _ (Nat.le_refl _) d h

theorem link_linkedTo {first d : Draft} (hfirst : first.Laid) (h : first.link = .ok d) :
    LinkedTo first first.sections.size d :=
  link_induction hfirst.linkedTo (fun _ _ _ hk hd => linkDocument_linkedTo hfirst hk hd) h

/-! ## Documents of a linked draft -/

/-- Every instruction of a draft lies in one of its documents. -/
theorem Laid.exists_bound {d : Draft} (h : d.Laid) {j : Nat} (hj : j < d.size) :
    ∃ k < d.sections.size, d.bound k ≤ j ∧ j < d.bound (k + 1) := by
  have hbelow : ∀ n, j < d.bound n → ∃ k < n, d.bound k ≤ j ∧ j < d.bound (k + 1) := by
    intro n
    induction n with
    | zero =>
      intro hlt
      rw [h.first] at hlt
      exact absurd hlt (Nat.not_lt_zero j)
    | succ n ih =>
      intro hlt
      rcases Nat.lt_or_ge j (d.bound n) with hold | hnew
      · obtain ⟨k, hk, hin⟩ := ih hold
        exact ⟨k, Nat.lt_succ_of_lt hk, hin⟩
      · exact ⟨n, Nat.lt_succ_self n, hnew, hlt⟩
  exact hbelow _ (d.bound_size ▸ hj)

/-- The instruction at an index of a finished program lies in one of its documents. -/
theorem exists_document {first d : Draft} (hlayout : SameLayout first d) (hfirst : first.Laid)
    {j : Nat} (hj : j < first.size) :
    ∃ doc ∈ d.sections.toList.map (·.span), doc.start ≤ j ∧ j < doc.stop := by
  obtain ⟨k, hk, hle, hlt⟩ := hfirst.exists_bound hj
  have hsec : d.sections[k]? = some _ := Array.getElem?_eq_getElem (hlayout.sections ▸ hk)
  obtain ⟨-, hstart, hstop⟩ := hlayout.bounds hfirst hsec
  have hmem := Array.mem_toList_iff.2 (Array.mem_of_getElem? hsec)
  exact ⟨_, List.mem_map_of_mem hmem, hstart ▸ hle, hstop ▸ hlt⟩

/-! ## Looking references up -/

theorem lookUp_eq {α : Type} {document : Nat} {find : Section → Option α} {d : Draft} {a : α}
    (h : d.lookUp document find = some a) :
    ∃ (k : Nat) (sec : Section), d.sections[k]? = some sec ∧ find sec = some a := by
  rcases Option.or_eq_some_iff.1 h with h | ⟨-, h⟩
  · obtain ⟨sec, hsec, hfind⟩ := Option.bind_eq_some_iff.1 h
    exact ⟨document, sec, hsec, hfind⟩
  · obtain ⟨sec, hsec, hfind⟩ := List.exists_of_findSome?_eq_some h
    obtain ⟨k, hk⟩ := Array.getElem?_of_mem (Array.mem_toList_iff.1 hsec)
    exact ⟨k, sec, hk, hfind⟩

theorem labelTarget_lt {d : Draft} {size : Nat} (h : d.Names size) {document target : Nat}
    {text : String} (ht : d.labelTarget? document text = some target) : target < size := by
  unfold labelTarget? at ht
  dsimp only at ht
  split at ht
  · obtain ⟨sec, hsec, ht⟩ := Option.bind_eq_some_iff.1 ht
    obtain ⟨e, he, rfl⟩ := Option.map_eq_some_iff.1 ht
    exact (h.sections document sec hsec).steps e (List.mem_of_find?_eq_some he)
  · obtain ⟨k, sec, hsec, ht⟩ := lookUp_eq ht
    exact (h.sections k sec hsec).tags.get? ht

section Settle

variable {size : Nat} {r : OpenReference} {rest : List OpenReference} {j : Nat} {op : Op}

/-- A reference of another kind, or of another instruction, is not missed. -/
theorem jumps_of_cons (h : op.Jumps size (r :: rest) j)
    (hother : r.index = j → ¬ op.Takes r.refers) : op.Jumps size rest j where
  jump target ht := by
    rcases h.jump target ht with hlt | ⟨r', hr', hj, htakes⟩
    · exact .inl hlt
    · rcases List.mem_cons.1 hr' with rfl | hr'
      · exact absurd htakes (hother hj)
      · exact .inr ⟨r', hr', hj, htakes⟩
  block := h.block

/-- A call that has found its function jumps there. -/
theorem jumps_setFunction {target : Nat} (ht : target < size) (param : String) {name : String}
    (hr : r.refers = .function name) (h : op.Jumps size (r :: rest) j) :
    (setFunction target param op).Jumps size rest j := by
  cases op with
  | callFunction => exact ⟨fun t he => .inl (Option.some.inj he ▸ ht), nofun⟩
  | _ =>
    refine jumps_of_cons h fun _ htakes => ?_
    rw [hr] at htakes
    cases htakes

/-- A call that has found its skill jumps there. -/
theorem jumps_setSkill {target : Nat} (ht : target < size) {key : String}
    (hr : r.refers = .skill key) (h : op.Jumps size (r :: rest) j) :
    (setSkill target op).Jumps size rest j := by
  cases op with
  | useSkill => exact ⟨fun t he => .inl (Option.some.inj he ▸ ht), nofun⟩
  | overloadSkill => exact ⟨fun t he => .inl (Option.some.inj he ▸ ht), nofun⟩
  | _ =>
    refine jumps_of_cons h fun _ htakes => ?_
    rw [hr] at htakes
    cases htakes

end Settle

theorem matched_setFunction {size target : Nat} {param : String} {op : Op} (h : op.Matched size) :
    (setFunction target param op).Matched size := by
  cases op <;> exact h

theorem matched_setSkill {size target : Nat} {op : Op} (h : op.Matched size) :
    (setSkill target op).Matched size := by
  cases op <;> exact h

theorem ends_setFunction {target : Nat} {param : String} {op : Op} (h : op.Ends) :
    (setFunction target param op).Ends := by
  cases h <;> constructor

theorem ends_setSkill {target : Nat} {op : Op} (h : op.Ends) : (setSkill target op).Ends := by
  cases h <;> constructor

/-- What holds of a linked draft with references that are still open. -/
structure Settled (size : Nat) (refs : List OpenReference) (d : Draft) : Prop where
  length : d.size = size
  names : d.Names size
  jumps : d.All (Op.Jumps size refs)
  last : d.All fun j op => j + 1 = size → op.Ends
  matched : d.All fun _ op => op.Matched size

theorem settle_settled {size : Nat} {r : OpenReference} {rest : List OpenReference} {d d' : Draft}
    (hd : Settled size (r :: rest) d) (h : d.settle r = .ok d') : Settled size rest d' := by
  have hkeep : ∀ (j : Nat) (op : Op), j ≠ r.index → op.Jumps size (r :: rest) j →
      op.Jumps size rest j :=
    fun j op hne hj => jumps_of_cons hj fun he => absurd he.symm hne
  cases settling h with
  | label hr ht =>
    have hlt := labelTarget_lt hd.names ht
    exact {
      length := (size_setOp _ _ d).trans hd.length
      names := hd.names.of_eq rfl rfl rfl
      jumps := hd.jumps.setOp_to hkeep ⟨fun t he => .inl (Option.some.inj he ▸ hlt), nofun⟩
      last := hd.last.setOp fun _ => .goto _ _
      matched := hd.matched.setOp (k := r.index) trivial }
  | @function name param target hr ht =>
    obtain ⟨k, sec, hsec, hf⟩ := lookUp_eq ht
    have hlt : target < size := (hd.names.sections k sec hsec).functions.get? hf
    exact {
      length := (size_modifyOp _ _ d).trans hd.length
      names := hd.names.of_eq rfl rfl rfl
      jumps := hd.jumps.modifyOp_to hkeep fun op hj => jumps_setFunction hlt param hr hj
      last := hd.last.modifyOp fun op hl he => ends_setFunction (hl he)
      matched := hd.matched.modifyOp (k := r.index) fun op hm => matched_setFunction hm }
  | @skill key target hr ht =>
    have hlt : target < size := hd.names.skills.get? ht
    exact {
      length := (size_modifyOp _ _ d).trans hd.length
      names := hd.names.of_eq rfl rfl rfl
      jumps := hd.jumps.modifyOp_to hkeep fun op hj => jumps_setSkill hlt hr hj
      last := hd.last.modifyOp fun op hl he => ends_setSkill (hl he)
      matched := hd.matched.modifyOp (k := r.index) fun op hm => matched_setSkill hm }

/-- Looking references up changes operations only. -/
theorem settle_reworked {r : OpenReference} {d d' : Draft} (h : d.settle r = .ok d') :
    Reworked d d' := by
  cases settling h with
  | label _ _ => exact (Reworked.refl d).setOp _ _
  | function _ _ => exact (Reworked.refl d).modifyOp _ _
  | skill _ _ => exact (Reworked.refl d).modifyOp _ _

theorem settleAll_sections {refs : List OpenReference} {d d' : Draft}
    (h : refs.foldlM settle d = .ok d') : d'.sections = d.sections :=
  foldlM_keeps (I := fun d' : Draft => d'.sections = d.sections)
    (fun _ _ _ hd hr => (settle_reworked hr).sections.trans hd) rfl h

theorem settleAll_settled {size : Nat} (refs : List OpenReference) {d d' : Draft}
    (hd : Settled size refs d) (h : refs.foldlM settle d = .ok d') : Settled size [] d' := by
  induction refs generalizing d with
  | nil =>
    cases h
    exact hd
  | cons r rest ih =>
    obtain ⟨d₁, h₁, h⟩ := bind_eq_ok h
    exact ih (settle_settled hd h₁) h

theorem LinkedTo.settled {first d : Draft} (h : LinkedTo first first.sections.size d) :
    Settled first.size d.references d where
  length := h.layout.size
  names := h.names
  jumps j op hj := by
    rw [h.layout.references]
    exact (h.jumps j op hj).1
  last j op hj := (h.jumps j op hj).2
  matched j op hj := by
    refine (h.matched j op hj).resolve_right fun hle => ?_
    have hlt := lt_size_of_op? hj
    rw [bound_size] at hle
    rw [h.layout.size] at hlt
    exact absurd hlt (Nat.not_lt.2 hle)

end Draft

/-! ## Resolved programs -/

namespace Program

/-- What the instruction at an index of a program does. -/
def op? (j : Nat) (p : Program) : Option Op := p.instructions[j]?.map (·.op)

theorem lt_size_of_op? {j : Nat} {op : Op} {p : Program} (h : p.op? j = some op) :
    j < p.size := by
  obtain ⟨i, hi, -⟩ := Option.map_eq_some_iff.1 h
  exact (Array.getElem?_eq_some_iff.1 hi).1

/-- Control stays inside a program: every target is an instruction, the last instruction does not go
on, and no part of a construct is left. -/
structure Linked (p : Program) : Prop where
  targets : ∀ j op, p.op? j = some op → ∀ target ∈ op.targets, target < p.size
  parts : ∀ j kind, p.op? j = some (.stub kind) → kind.isPart = false
  blocks : ∀ j op stop, p.op? j = some op → op.blockEnd? = some stop →
    stop < p.size ∨ stop = sentinel
  last : ∀ j op, p.op? j = some op → j + 1 = p.size → op.Ends
  handlers : p.handlers.AllValues (· < p.size)

end Program

/-- A resolved program is linked, and it has an instruction. -/
theorem linked_of_resolve {main : SkillDocument} {library : SkillLibrary} {p : Program}
    (h : resolve main library = .ok p) : p.Linked ∧ 0 < p.size := by
  obtain ⟨d₁, d₂, d₃, h₁, h₂, h₃, rfl⟩ := resolve_eq_ok h
  obtain ⟨hlaid, hsize⟩ := Draft.ofDocuments_laid h₁
  have hd := Draft.settleAll_settled _ (Draft.link_linkedTo hlaid h₂).settled h₃
  refine ⟨?_, (congrArg (0 < ·) hd.length).mpr hsize⟩
  rw [← hd.length] at hd
  exact {
    targets := by
      intro j op hop target ht
      have hj := (hd.jumps j op hop).jump
      have hm := hd.matched j op hop
      have hjump : op.jump? = some target → target < d₃.size := fun he =>
        (hj target he).resolve_right fun ⟨_, hr, _⟩ => nomatch hr
      cases op with
      | checkCondition condition ifElse ifEnd =>
        rcases List.mem_cons.1 ht with rfl | ht
        · exact hm.1
        · exact List.mem_singleton.1 ht ▸ hm.2
      | loop guard count counter stop => exact List.mem_singleton.1 ht ▸ hm
      | goto => exact hjump (congrArg some (List.mem_singleton.1 ht).symm)
      | callFunction => exact hjump (congrArg some (List.mem_singleton.1 ht).symm)
      | useSkill => exact hjump (congrArg some (List.mem_singleton.1 ht).symm)
      | overloadSkill => exact hjump (congrArg some (List.mem_singleton.1 ht).symm)
      | _ => cases ht
    parts := fun j kind hop => hd.matched j _ hop
    blocks := fun j op stop hop hs => (hd.jumps j op hop).block stop hs
    last := hd.last
    handlers := hd.names.handlers.sorted }

end Deskhand
