import Deskhand.Proofs.Documents

/-!
# Linking a document

While a document is being linked, an instruction has no target only as long as an open construct owes
it one (`Construct.Owes`): every mark that closes a construct pays its debts. What a visit keeps is
`LinkState.Linking`; in the end nothing but skills may be open, so no debts are left.
-/

namespace Deskhand

/-- The constructs have got their targets, and no part of one is left. -/
def Op.Matched (size : Nat) : Op → Prop
  | checkCondition _ ifElse ifEnd => ifElse < size ∧ ifEnd < size
  | loop _ _ _ stop => stop < size
  | stub kind => kind.isPart = false
  | _ => True

/-- A construct owes an instruction a target: the one that opened it, the mark between its parts, the
jumps out of it. What the opening instruction is, and what it has already got, is part of the debt. -/
def Construct.Owes (size j : Nat) (op : Op) : Construct → Prop
  | condition start orElse =>
    (j = start ∧ ∃ condition ifElse ifEnd, op = .checkCondition condition ifElse ifEnd ∧
      (orElse.isSome → ifElse < size)) ∨ orElse = some j
  | loop start breaks =>
    (j = start ∧ ∃ guard count counter stop, op = .loop guard count counter stop) ∨ j ∈ breaks
  | function start => j = start
  | skill => False

/-- An instruction has its targets, or is owed them, or has not been visited yet. -/
def Provided (size next : Nat) (constructs : List Construct) (j : Nat) (op : Op) : Prop :=
  op.Matched size ∨ (∃ c ∈ constructs, c.Owes size j op) ∨ next ≤ j

/-! ## Debts while a document is linked -/

namespace LinkState

open Draft

theorem matched_patched (size : Nat) : Patched (· < size) fun _ op => op.Matched size where
  goto _ _ := trivial
  setElse {j target op} ht h := by
    cases op with
    | checkCondition condition ifElse ifEnd => exact ⟨ht, h.2⟩
    | _ => exact h
  setEnd {j target op} ht h := by
    cases op with
    | checkCondition condition ifElse ifEnd => exact ⟨h.1, ht⟩
    | _ => exact h
  setStop {j target op} ht h := by
    cases op with
    | loop guard count counter stop => exact ht
    | _ => exact h

/-- A debt stays one, whatever patch comes first. -/
theorem owes_setElse {size j target : Nat} {op : Op} {c : Construct} (ht : target < size)
    (h : c.Owes size j op) : c.Owes size j (setElse target op) := by
  cases c with
  | condition start orElse =>
    rcases h with ⟨hj, condition, ifElse, ifEnd, rfl, -⟩ | h
    · exact .inl ⟨hj, condition, target, ifEnd, rfl, fun _ => ht⟩
    · exact .inr h
  | loop start breaks =>
    rcases h with ⟨hj, guard, count, counter, stop, rfl⟩ | h
    · exact .inl ⟨hj, guard, count, counter, stop, rfl⟩
    · exact .inr h
  | function start => exact h
  | skill => exact h

theorem owes_setEnd {size j target : Nat} {op : Op} {c : Construct} (h : c.Owes size j op) :
    c.Owes size j (setEnd target op) := by
  cases c with
  | condition start orElse =>
    rcases h with ⟨hj, condition, ifElse, ifEnd, rfl, h⟩ | h
    · exact .inl ⟨hj, condition, ifElse, target, rfl, h⟩
    · exact .inr h
  | loop start breaks =>
    rcases h with ⟨hj, guard, count, counter, stop, rfl⟩ | h
    · exact .inl ⟨hj, guard, count, counter, stop, rfl⟩
    · exact .inr h
  | function start => exact h
  | skill => exact h

theorem owes_setStop {size j target : Nat} {op : Op} {c : Construct} (h : c.Owes size j op) :
    c.Owes size j (setStop target op) := by
  cases c with
  | condition start orElse =>
    rcases h with ⟨hj, condition, ifElse, ifEnd, rfl, h⟩ | h
    · exact .inl ⟨hj, condition, ifElse, ifEnd, rfl, h⟩
    · exact .inr h
  | loop start breaks =>
    rcases h with ⟨hj, guard, count, counter, stop, rfl⟩ | h
    · exact .inl ⟨hj, guard, count, counter, target, rfl⟩
    · exact .inr h
  | function start => exact h
  | skill => exact h

theorem provided_patched (size next : Nat) (constructs : List Construct) :
    Patched (· < size) (Provided size next constructs) where
  goto _ _ := .inl trivial
  setElse ht h := h.imp ((matched_patched size).setElse (j := 0) ht)
    (.imp_left fun ⟨c, hc, ho⟩ => ⟨c, hc, owes_setElse ht ho⟩)
  setEnd ht h := h.imp ((matched_patched size).setEnd (j := 0) ht)
    (.imp_left fun ⟨c, hc, ho⟩ => ⟨c, hc, owes_setEnd ho⟩)
  setStop ht h := h.imp ((matched_patched size).setStop (j := 0) ht)
    (.imp_left fun ⟨c, hc, ho⟩ => ⟨c, hc, owes_setStop ho⟩)

/-- Jumps and calls keep their targets, and the last instruction does not begin to go on. -/
theorem jumps_patched (size : Nat) (refs : List OpenReference) : Patched (· < size)
    fun j op => op.Jumps size refs j ∧ (j + 1 = size → op.Ends) where
  goto increment ht :=
    ⟨⟨fun target he => .inl (Option.some.inj he ▸ ht), nofun⟩, fun _ => .goto _ _⟩
  setElse {j target op} ht h := by
    cases op with
    | checkCondition condition ifElse ifEnd =>
      exact ⟨.of_eq_none rfl rfl, fun hj => nomatch h.2 hj⟩
    | _ => exact h
  setEnd {j target op} ht h := by
    cases op with
    | checkCondition condition ifElse ifEnd =>
      exact ⟨.of_eq_none rfl rfl, fun hj => nomatch h.2 hj⟩
    | _ => exact h
  setStop {j target op} ht h := by
    cases op with
    | loop guard count counter stop => exact ⟨.of_eq_none rfl rfl, fun hj => nomatch h.2 hj⟩
    | exceptionHandler args stop =>
      exact ⟨⟨nofun, fun stop he => .inl (Option.some.inj he ▸ ht)⟩, fun hj => nomatch h.2 hj⟩
    | _ => exact h

section Closing

variable {size next : Nat} {rest : List Construct} {d : Draft}

theorem provided_cons {c : Construct} {j : Nat} {op : Op} (h : Provided size next rest j op) :
    Provided size next (c :: rest) j op := 
  h.imp_right (.imp_left fun ⟨b, hb, ho⟩ => ⟨b, List.mem_cons_of_mem _ hb, ho⟩)

theorem provided_of_cons {c : Construct} {j : Nat} {op : Op} (h : Provided size next (c :: rest) j op) :
    c.Owes size j op ∨ Provided size next rest j op := by
  rcases h with h | ⟨b, hb, ho⟩ | h
  · exact .inr (.inl h)
  · rcases List.mem_cons.1 hb with rfl | hb
    · exact .inl ho
    · exact .inr (.inr (.inl ⟨b, hb, ho⟩))
  · exact .inr (.inr (.inr h))

/-- The end of a condition with one part pays its debts. -/
theorem provided_endWhen {start target : Nat} (ht : target < size)
    (h : d.All (Provided size next (.condition start none :: rest))) :
    ((d.modifyOp start (setEnd target)).modifyOp start (setElse target)).All
      (Provided size next rest) := by
  have hend : (d.modifyOp start (setEnd target)).All fun j op => Provided size next rest j op ∨
      j = start ∧ ∃ condition ifElse, op = .checkCondition condition ifElse target := by
    refine h.modifyOp_to (fun j op hne hp => ?_) fun op hp => ?_
    · rcases provided_of_cons hp with (⟨hj, -⟩ | hj) | hp
      · exact absurd hj hne
      · cases hj
      · exact .inl hp
    · rcases provided_of_cons hp with (⟨-, condition, ifElse, ifEnd, rfl, -⟩ | hj) | hp
      · exact .inr ⟨rfl, condition, ifElse, rfl⟩
      · cases hj
      · exact .inl ((provided_patched size next rest).setEnd ht hp)
  refine hend.modifyOp_to (fun j op hne hp => ?_) fun op hp => ?_
  · exact hp.resolve_right fun h => hne h.1
  · rcases hp with hp | ⟨-, condition, ifElse, rfl⟩
    · exact (provided_patched size next rest).setElse ht hp
    · exact .inl ⟨ht, ht⟩

/-- The end of a condition with two parts pays its debts. -/
theorem provided_endChoose {start mark target : Nat} (ht : target < size)
    (h : d.All (Provided size next (.condition start (some mark) :: rest))) :
    ((d.modifyOp start (setEnd target)).setOp mark (.goto target none)).All
      (Provided size next rest) := by
  have hend : (d.modifyOp start (setEnd target)).All fun j op =>
      Provided size next rest j op ∨ j = mark := by
    refine h.modifyOp_to (fun j op hne hp => ?_) fun op hp => ?_
    · rcases provided_of_cons hp with (⟨hj, -⟩ | hj) | hp
      · exact absurd hj hne
      · exact .inr (Option.some.inj hj).symm
      · exact .inl hp
    · rcases provided_of_cons hp with (⟨-, condition, ifElse, ifEnd, rfl, hlt⟩ | hj) | hp
      · exact .inl (.inl ⟨hlt rfl, ht⟩)
      · exact .inr (Option.some.inj hj).symm
      · exact .inl ((provided_patched size next rest).setEnd ht hp)
  exact hend.setOp_to (fun j op hne hp => hp.resolve_right hne) (.inl trivial)

theorem all_foldl_setOp_to {P : Nat → Op → Prop} {target : Nat}
    (hgoto : ∀ j, P j (.goto target none)) (breaks : List Nat) {d : Draft}
    (h : d.All fun j op => P j op ∨ j ∈ breaks) :
    (breaks.foldl (fun d b => d.setOp b (.goto target none)) d).All P := by
  induction breaks generalizing d with
  | nil => exact fun j op hop => (h j op hop).resolve_right List.not_mem_nil
  | cons b breaks ih =>
    refine ih (h.setOp_to (fun j op hne hp => hp.imp_right fun hj => ?_) (.inl (hgoto b)))
    exact (List.mem_cons.1 hj).resolve_left hne

/-- An instruction that becomes a jump counts as visited. -/
theorem provided_setOp {index target : Nat} (increment : Option String)
    (h : d.All (Provided size index rest)) :
    (d.setOp index (.goto target increment)).All (Provided size (index + 1) rest) := by
  refine h.setOp_to (fun j op hne hp => ?_) (.inl trivial)
  exact hp.imp_right (.imp_right fun hle => Nat.lt_of_le_of_ne hle hne.symm)

/-- The end of a loop pays its debts. -/
theorem provided_endLoop {start index target : Nat} {breaks : List Nat} (ht : target < size)
    (increment : Option String) (h : d.All (Provided size index (.loop start breaks :: rest))) :
    (breaks.foldl (fun d b => d.setOp b (.goto target none))
      ((d.modifyOp start (setStop target)).setOp index (.goto start increment))).All
      (Provided size (index + 1) rest) := by
  have hstop : (d.modifyOp start (setStop target)).All fun j op =>
      Provided size index rest j op ∨ j ∈ breaks := by
    refine h.modifyOp_to (fun j op hne hp => ?_) fun op hp => ?_
    · rcases provided_of_cons hp with (⟨hj, -⟩ | hj) | hp
      · exact absurd hj hne
      · exact .inr hj
      · exact .inl hp
    · rcases provided_of_cons hp with (⟨-, guard, count, counter, stop, rfl⟩ | hj) | hp
      · exact .inl (.inl ht)
      · exact .inr hj
      · exact .inl ((provided_patched size index rest).setStop ht hp)
  refine all_foldl_setOp_to (fun j => .inl trivial) breaks ?_
  refine hstop.setOp_to (fun j op hne hp => hp.imp_left fun hp => ?_) (.inl (.inl trivial))
  exact hp.imp_right (.imp_right fun hle => Nat.lt_of_le_of_ne hle hne.symm)

/-- The end of a function pays its debt. -/
theorem provided_endFunction {start target : Nat}
    (h : d.All (Provided size next (.function start :: rest))) :
    (d.setOp start (.goto target none)).All (Provided size next rest) :=
  h.setOp_to (fun _ _ hne hp => (provided_of_cons hp).resolve_left hne) (.inl trivial)

/-- The mark between the parts of a condition is a new debt, and pays one. -/
theorem provided_orElse {start index target : Nat} (ht : target < size)
    (h : d.All fun j op => Provided size next (.condition start none :: rest) j op ∨ j = index) :
    (d.modifyOp start (setElse target)).All
      (Provided size next (.condition start (some index) :: rest)) := by
  have hmark {op : Op} : Provided size next (.condition start (some index) :: rest) index op :=
    .inr (.inl ⟨_, List.mem_cons_self, .inr rfl⟩)
  refine h.modifyOp_to (fun j op hne hp => ?_) fun op hp => ?_
  · rcases hp with hp | rfl
    · rcases provided_of_cons hp with (⟨hj, -⟩ | hj) | hp
      · exact absurd hj hne
      · cases hj
      · exact provided_cons hp
    · exact hmark
  · rcases hp with hp | rfl
    · rcases provided_of_cons hp with (⟨-, condition, ifElse, ifEnd, rfl, -⟩ | hj) | hp
      · exact .inr (.inl ⟨_, List.mem_cons_self,
          .inl ⟨rfl, condition, target, ifEnd, rfl, fun _ => ht⟩⟩)
      · cases hj
      · exact provided_cons ((provided_patched size next rest).setElse ht hp)
    · exact hmark

/-- A jump out of a loop is a new debt of the loop. -/
theorem owes_addBreak {index : Nat} {constructs constructs' : List Construct}
    (h : addBreak index constructs = some constructs') {j : Nat} {op : Op}
    (hp : (∃ c ∈ constructs, c.Owes size j op) ∨ j = index) :
    ∃ c ∈ constructs', c.Owes size j op := by
  induction constructs generalizing constructs' with
  | nil => cases h
  | cons c rest ih =>
    cases c with
    | loop start breaks =>
      cases h
      rcases hp with ⟨c, hc, ho⟩ | rfl
      · rcases List.mem_cons.1 hc with rfl | hc
        · exact ⟨_, List.mem_cons_self, ho.imp_right (List.mem_append_left _)⟩
        · exact ⟨c, List.mem_cons_of_mem _ hc, ho⟩
      · exact ⟨_, List.mem_cons_self, .inr (List.mem_append_right _ List.mem_cons_self)⟩
    | condition start orElse =>
      obtain ⟨rest', hrest, rfl⟩ := Option.map_eq_some_iff.1 h
      have hlift : (∃ c ∈ rest', c.Owes size j op) →
          ∃ c ∈ .condition start orElse :: rest', c.Owes size j op :=
        fun ⟨c, hc, ho⟩ => ⟨c, List.mem_cons_of_mem _ hc, ho⟩
      rcases hp with ⟨c, hc, ho⟩ | hj
      · rcases List.mem_cons.1 hc with rfl | hc
        · exact ⟨_, List.mem_cons_self, ho⟩
        · exact hlift (ih hrest (.inl ⟨c, hc, ho⟩))
      · exact hlift (ih hrest (.inr hj))
    | _ => cases h

end Closing

/-! ## Visiting one instruction after another -/

/-- What holds while a document is being linked, up to the next instruction to visit. -/
structure Linking (size next : Nat) (s : LinkState) : Prop where
  length : s.draft.size = size
  names : s.draft.Names size
  jumps : s.draft.All fun j op =>
    op.Jumps size s.draft.references j ∧ (j + 1 = size → op.Ends)
  opened : ∀ c ∈ s.constructs, ∀ start, c.opening? = some start → start < size
  provided : s.draft.All (Provided size next s.constructs)

/-- Nothing but operations was changed. -/
structure Reworked (d d' : Draft) : Prop where
  size : d'.size = d.size
  references : d'.references = d.references
  sections : d'.sections = d.sections
  skills : d'.skills = d.skills
  handlers : d'.handlers = d.handlers

namespace Reworked

theorem refl (d : Draft) : Reworked d d := ⟨rfl, rfl, rfl, rfl, rfl⟩

theorem modifyOp {d d' : Draft} (h : Reworked d d') (k : Nat) (f : Op → Op) :
    Reworked d (d'.modifyOp k f) :=
  ⟨(size_modifyOp k f d').trans h.size, h.references, h.sections, h.skills, h.handlers⟩

theorem setOp {d d' : Draft} (h : Reworked d d') (k : Nat) (op : Op) :
    Reworked d (d'.setOp k op) := h.modifyOp k _

theorem foldl_setOp {d d' : Draft} (h : Reworked d d') (breaks : List Nat) (op : Op) :
    Reworked d (breaks.foldl (fun d b => d.setOp b op) d') := by
  induction breaks generalizing d' with
  | nil => exact h
  | cons b breaks ih => exact ih (h.setOp b op)

end Reworked

variable {document index size : Nat} {op : Op} {s s' : LinkState}

/-- Visiting an instruction changes operations only, or notes one name. -/
theorem Visited.reworked (hv : s.Visited document index op s') :
    Reworked s.draft s'.draft ∨
    (∃ name param, op = .stub (.startFunction name param) ∧
      s' = s.linkStartFunction document index name param) ∨
    (∃ name, op = .stub (.startSkill name) ∧ s' = s.linkStartSkill document index name) ∨
    ∃ name, op = .stub (.tag name) ∧ s'.draft = s.draft.modifySection document fun sec =>
      { sec with tags := sec.tags.put name index } := by
  have hrefl := Reworked.refl s.draft
  cases hv with
  | orElse _ => exact .inl (hrefl.modifyOp _ _)
  | endWhen _ => exact .inl (((hrefl.modifyOp _ _).modifyOp _ _).setOp _ _)
  | endChoose _ => exact .inl (((hrefl.modifyOp _ _).setOp _ _).setOp _ _)
  | endLoop _ _ => exact .inl (((hrefl.modifyOp _ _).setOp _ _).foldl_setOp _ _)
  | endFunction _ _ => exact .inl (hrefl.setOp _ _)
  | endException _ => exact .inl (hrefl.modifyOp _ _)
  | startFunction name param => exact .inr (.inl ⟨name, param, rfl, rfl⟩)
  | startSkill name => exact .inr (.inr (.inl ⟨name, rfl, rfl⟩))
  | tag name => exact .inr (.inr (.inr ⟨name, rfl, rfl⟩))
  | _ => exact .inl hrefl

/-- What is known of a document comes from what was known of it, reworked if it is the document at
the index. -/
theorem section_of_modify {d : Draft} {j k : Nat} {f : Section → Section} {sec' : Section}
    (h : (d.modifySection k f).sections[j]? = some sec') :
    ∃ sec, d.sections[j]? = some sec ∧ sec' = if j = k then f sec else sec := by
  change (d.sections.modify k f)[j]? = some sec' at h
  rw [Array.getElem?_modify] at h
  split at h
  · next heq =>
    obtain ⟨sec, hsec, rfl⟩ := Option.map_eq_some_iff.1 h
    exact ⟨sec, hsec, (if_pos heq.symm).symm⟩
  · next hne => exact ⟨sec', h, (if_neg (Ne.symm hne)).symm⟩

/-- What linking leaves alone. -/
structure SameLayout (d d' : Draft) : Prop where
  size : d'.size = d.size
  references : d'.references = d.references
  handlers : d'.handlers = d.handlers
  sections : d'.sections.size = d.sections.size
  span : ∀ (k : Nat) (sec' : Section), d'.sections[k]? = some sec' →
    ∃ sec, d.sections[k]? = some sec ∧ sec'.span = sec.span

namespace SameLayout

theorem refl (d : Draft) : SameLayout d d := ⟨rfl, rfl, rfl, rfl, fun _ sec h => ⟨sec, h, rfl⟩⟩

theorem trans {d d' d'' : Draft} (h : SameLayout d d') (h' : SameLayout d' d'') :
    SameLayout d d'' where
  size := h'.size.trans h.size
  references := h'.references.trans h.references
  handlers := h'.handlers.trans h.handlers
  sections := h'.sections.trans h.sections
  span k sec'' hk := by
    obtain ⟨sec', hk', he'⟩ := h'.span k sec'' hk
    obtain ⟨sec, hk, he⟩ := h.span k sec' hk'
    exact ⟨sec, hk, he'.trans he⟩

theorem reworked {d d' : Draft} (h : Reworked d d') : SameLayout d d' where
  size := h.size
  references := h.references
  handlers := h.handlers
  sections := by rw [h.sections]
  span k sec hk := ⟨sec, h.sections ▸ hk, rfl⟩

theorem modifySection {d : Draft} (k : Nat) {f : Section → Section}
    (hf : ∀ sec, (f sec).span = sec.span) : SameLayout d (d.modifySection k f) where
  size := rfl
  references := rfl
  handlers := rfl
  sections := Array.size_modify
  span j sec' hj := by
    obtain ⟨sec, hsec, rfl⟩ := section_of_modify hj
    refine ⟨sec, hsec, ?_⟩
    split
    · exact hf sec
    · rfl

end SameLayout

theorem Visited.sameLayout (hv : s.Visited document index op s') :
    SameLayout s.draft s'.draft := by
  rcases hv.reworked with h | ⟨name, param, -, rfl⟩ | ⟨name, -, rfl⟩ | ⟨name, -, h⟩
  · exact .reworked h
  · exact .modifySection _ fun _ => rfl
  · exact ⟨rfl, rfl, rfl, rfl, fun _ sec h => ⟨sec, h, rfl⟩⟩
  · rw [h]
    exact .modifySection _ fun _ => rfl

theorem names_modifySection {d : Draft} (h : d.Names size) (k : Nat) {f : Section → Section}
    (hf : ∀ sec : Section, sec.Names size → (f sec).Names size) :
    (d.modifySection k f).Names size where
  skills := h.skills
  handlers := h.handlers
  sections j sec' hj := by
    obtain ⟨sec, hsec, rfl⟩ := section_of_modify hj
    have hsame := h.sections j sec hsec
    split
    · exact hf sec hsame
    · exact hsame

/-- A mark that is visited is not the last instruction. -/
theorem Linking.next_lt (hs : Linking size index s) (hop : s.draft.op? index = some op)
    (hne : ¬ op.Ends) : index + 1 < size := by
  have hlt := lt_size_of_op? hop
  rw [hs.length] at hlt
  exact Nat.lt_of_le_of_ne hlt fun he => hne ((hs.jumps index op hop).2 he)

theorem Visited.names (hs : Linking size index s) (hop : s.draft.op? index = some op)
    (hv : s.Visited document index op s') : s'.draft.Names size := by
  have hindex : index < size := hs.length ▸ lt_size_of_op? hop
  rcases hv.reworked with h | ⟨name, param, rfl, rfl⟩ | ⟨name, rfl, rfl⟩ | ⟨name, rfl, h⟩
  · exact hs.names.of_eq h.skills h.handlers h.sections
  · have hnext := hs.next_lt hop nofun
    exact names_modifySection hs.names _ fun sec hsec =>
      ⟨hsec.steps, hsec.tags, hsec.functions.putNew hnext⟩
  · have hnext := hs.next_lt hop nofun
    refine ⟨?_, hs.names.handlers, hs.names.sections⟩
    unfold linkStartSkill
    dsimp only
    split
    · exact hs.names.skills.put hnext
    · exact (hs.names.skills.put hnext).putNew hnext
  · rw [h]
    exact names_modifySection hs.names _ fun sec hsec =>
      ⟨hsec.steps, hsec.tags.put hindex, hsec.functions⟩

/-- Visiting the last instruction changes nothing. -/
theorem Visited.draft_of_ends (hv : s.Visited document index op s') (hop : op.Ends) :
    s'.draft = s.draft := by
  cases hv with
  | endSkill _ _ => rfl
  | strayEnd _ _ => rfl
  | other _ _ => rfl
  | condition | loop | breakLoop | handler => rfl
  | _ => cases hop

theorem Visited.jumps (hs : Linking size index s) (hop : s.draft.op? index = some op)
    (hv : s.Visited document index op s') : s'.draft.All fun j op =>
      op.Jumps size s'.draft.references j ∧ (j + 1 = size → op.Ends) := by
  rw [hv.sameLayout.references]
  by_cases hends : op.Ends
  · rw [hv.draft_of_ends hends]
    exact hs.jumps
  · refine hv.all (jumps_patched size _) (hs.next_lt hop hends) (fun start breaks rest h => ?_)
      hs.jumps
    exact hs.opened (.loop start breaks) (by rw [h]; exact List.mem_cons_self) start rfl

theorem opening_of_addBreak {constructs constructs' : List Construct}
    (h : addBreak index constructs = some constructs') {c' : Construct} (hc' : c' ∈ constructs') :
    ∃ c ∈ constructs, c'.opening? = c.opening? := by
  induction constructs generalizing constructs' with
  | nil => cases h
  | cons c rest ih =>
    cases c with
    | loop start breaks =>
      cases h
      rcases List.mem_cons.1 hc' with rfl | hc'
      · exact ⟨_, List.mem_cons_self, rfl⟩
      · exact ⟨c', List.mem_cons_of_mem _ hc', rfl⟩
    | condition start orElse =>
      obtain ⟨rest', hrest, rfl⟩ := Option.map_eq_some_iff.1 h
      rcases List.mem_cons.1 hc' with rfl | hc'
      · exact ⟨_, List.mem_cons_self, rfl⟩
      · obtain ⟨c, hc, he⟩ := ih hrest hc'
        exact ⟨c, List.mem_cons_of_mem _ hc, he⟩
    | _ => cases h

theorem Visited.opened (hs : Linking size index s) (hop : s.draft.op? index = some op)
    (hv : s.Visited document index op s') :
    ∀ c ∈ s'.constructs, ∀ start, c.opening? = some start → start < size := by
  have hindex : index < size := hs.length ▸ lt_size_of_op? hop
  have hnew {c : Construct} (hc : ∀ start, c.opening? = some start → start = index) :
      ∀ b ∈ c :: s.constructs, ∀ start, b.opening? = some start → start < size := by
    intro b hb start hstart
    rcases List.mem_cons.1 hb with rfl | hb
    · exact hc start hstart ▸ hindex
    · exact hs.opened b hb start hstart
  have hrest {c : Construct} {rest : List Construct} (h : s.constructs = c :: rest) :
      ∀ b ∈ rest, ∀ start, b.opening? = some start → start < size :=
    fun b hb => hs.opened b (by rw [h]; exact List.mem_cons_of_mem _ hb)
  cases hv with
  | condition _ _ _ => exact hnew fun _ h => (Option.some.inj h).symm
  | loop _ _ _ _ => exact hnew fun _ h => (Option.some.inj h).symm
  | @orElse start rest h =>
    intro b hb opening hopening
    rcases List.mem_cons.1 hb with rfl | hb
    · exact hs.opened (.condition start none) (by rw [h]; exact List.mem_cons_self) opening hopening
    · exact hrest h b hb opening hopening
  | endWhen h => exact hrest h
  | endChoose h => exact hrest h
  | breakLoop h =>
    intro b hb start hstart
    obtain ⟨c, hc, he⟩ := opening_of_addBreak h hb
    exact hs.opened c hc start (he ▸ hstart)
  | endLoop _ h => exact hrest h
  | startFunction _ _ => exact hnew fun _ h => (Option.some.inj h).symm
  | endFunction _ h => exact hrest h
  | startSkill _ => exact hnew fun _ h => nomatch h
  | endSkill _ h => exact hrest h
  | handler _ _ => exact hs.opened
  | endException _ => exact hs.opened
  | tag _ => exact hs.opened
  | strayEnd _ _ => exact hs.opened
  | other _ _ => exact hs.opened

/-- The instruction that is visited next is all that changes when it counts as visited. -/
theorem Linking.provided_succ (hs : Linking size index s) (hop : s.draft.op? index = some op) :
    s.draft.All fun j op' => Provided size (index + 1) s.constructs j op' ∨ j = index ∧ op' = op := by
  intro j op' hj
  rcases hs.provided j op' hj with h | h | h
  · exact .inl (.inl h)
  · exact .inl (.inr (.inl h))
  · rcases Nat.lt_or_eq_of_le h with h | rfl
    · exact .inl (.inr (.inr h))
    · rw [hop] at hj
      exact .inr ⟨rfl, (Option.some.inj hj).symm⟩

theorem Linking.provided_of_matched (hs : Linking size index s)
    (hop : s.draft.op? index = some op) (hmatched : op.Matched size) :
    s.draft.All (Provided size (index + 1) s.constructs) := by
  intro j op' hj
  rcases hs.provided_succ hop j op' hj with h | ⟨-, rfl⟩
  · exact h
  · exact .inl hmatched

theorem Visited.provided (hs : Linking size index s) (hop : s.draft.op? index = some op)
    (hv : s.Visited document index op s') :
    s'.draft.All (Provided size (index + 1) s'.constructs) := by
  have hsucc := hs.provided_succ hop
  cases hv with
  | condition condition ifElse ifEnd =>
    intro j op' hj
    rcases hsucc j op' hj with h | ⟨rfl, rfl⟩
    · exact provided_cons h
    · exact .inr (.inl ⟨_, List.mem_cons_self, .inl ⟨rfl, _, _, _, rfl, nofun⟩⟩)
  | loop guard count counter stop =>
    intro j op' hj
    rcases hsucc j op' hj with h | ⟨rfl, rfl⟩
    · exact provided_cons h
    · exact .inr (.inl ⟨_, List.mem_cons_self, .inl ⟨rfl, _, _, _, _, rfl⟩⟩)
  | orElse h =>
    rw [h] at hsucc
    exact provided_orElse (hs.next_lt hop nofun) fun j op' hj =>
      (hsucc j op' hj).imp_right fun h => h.1
  | endWhen h =>
    have hopen := hs.provided
    rw [h] at hopen
    exact provided_setOp none (provided_endWhen (hs.next_lt hop nofun) hopen)
  | endChoose h =>
    have hopen := hs.provided
    rw [h] at hopen
    exact provided_setOp none (provided_endChoose (hs.next_lt hop nofun) hopen)
  | breakLoop h =>
    intro j op' hj
    rcases hsucc j op' hj with (hp | hp | hp) | ⟨rfl, -⟩
    · exact .inl hp
    · exact .inr (.inl (owes_addBreak h (.inl hp)))
    · exact .inr (.inr hp)
    · exact .inr (.inl (owes_addBreak h (.inr rfl)))
  | endLoop increment h =>
    have hopen := hs.provided
    rw [h] at hopen
    exact provided_endLoop (hs.next_lt hop nofun) increment hopen
  | startFunction name param =>
    intro j op' hj
    rcases hsucc j op' hj with h | ⟨rfl, -⟩
    · exact provided_cons h
    · exact .inr (.inl ⟨_, List.mem_cons_self, rfl⟩)
  | endFunction name h =>
    have hopen := hs.provided_of_matched hop rfl
    rw [h] at hopen
    exact provided_endFunction hopen
  | startSkill name =>
    exact fun j op' hj => provided_cons (hs.provided_of_matched hop rfl j op' hj)
  | endSkill name h =>
    have hopen := hs.provided_of_matched hop rfl
    rw [h] at hopen
    exact fun j op' hj => (provided_of_cons (hopen j op' hj)).resolve_left id
  | handler args stop => exact hs.provided_of_matched hop trivial
  | endException h =>
    exact (hs.provided_of_matched hop trivial).modifyOp fun _ =>
      (provided_patched size _ _).setStop (hs.next_lt hop nofun)
  | tag name => exact hs.provided_of_matched hop rfl
  | strayEnd name _ => exact hs.provided_of_matched hop rfl
  | other _ h =>
    refine hs.provided_of_matched hop ?_
    cases op with
    | checkCondition => cases h
    | loop => cases h
    | stub kind =>
      cases kind with
      | tag | label => rfl
      | _ => cases h
    | _ => trivial

/-- Visiting an instruction keeps everything that holds of linking. -/
theorem Visited.linking (hs : Linking size index s) (hop : s.draft.op? index = some op)
    (hv : s.Visited document index op s') : Linking size (index + 1) s' where
  length := hv.sameLayout.size.trans hs.length
  names := hv.names hs hop
  jumps := hv.jumps hs hop
  opened := hv.opened hs hop
  provided := hv.provided hs hop

/-- Visiting instructions up to an index keeps it for all of them. -/
theorem visitFrom_linking (n : Nat) (hn : index + n ≤ size) (hs : Linking size index s)
    (h : visitFrom document index n s = .ok s') :
    Linking size (index + n) s' ∧ SameLayout s.draft s'.draft := by
  induction n generalizing index s with
  | zero =>
    cases h
    exact ⟨hs, .refl _⟩
  | succ n ih =>
    unfold visitFrom at h
    split at h
    · next hnone =>
      have hlt : index < s.draft.instructions.size := by
        have hlen := hs.length
        unfold Draft.size at hlen
        omega
      rw [Array.getElem?_eq_getElem hlt] at hnone
      cases hnone
    · next i hi =>
      obtain ⟨s₁, h₁, h⟩ := bind_eq_ok h
      have hv := visited h₁
      have hop : s.draft.op? index = some i.op := congrArg (Option.map Instruction.op) hi
      have hlayout := hv.sameLayout
      obtain ⟨hlinking, hlater⟩ := ih (by omega) (hv.linking hs hop) h
      rw [Nat.add_right_comm, Nat.add_assoc] at hlinking
      exact ⟨hlinking, hlayout.trans hlater⟩

theorem sameLayout_of_visitFrom {document index n : Nat} {s s' : LinkState}
    (h : visitFrom document index n s = .ok s') : SameLayout s.draft s'.draft :=
  visitFrom_keeps (I := fun r => SameLayout s.draft r.draft)
    (fun _ _ _ _ hs hv => hs.trans hv.sameLayout) index n (.refl _) h

/-- Nothing but skills is open at the end of a document. -/
theorem opening_of_close {d : Draft} (h : s.close = .ok d) {c : Construct}
    (hc : c ∈ s.constructs) : c.opening? = none := by
  unfold close at h
  split at h
  · cases h
  · split at h
    · cases h
    · next hnone => exact List.findSome?_eq_none_iff.1 hnone c (List.mem_reverse.2 hc)

/-- If nothing but skills is open in the end, no debts are left. -/
theorem close_matched {d : Draft} (hs : Linking size index s) (h : s.close = .ok d) :
    d.All fun j op => op.Matched size ∨ index ≤ j := by
  have hopening := fun c hc => opening_of_close h (c := c) hc
  rw [close_eq h]
  intro j op hj
  rcases hs.provided j op hj with hm | ⟨c, hc, ho⟩ | hle
  · exact .inl hm
  · cases c with
    | skill => cases ho
    | _ => cases hopening _ hc
  · exact .inr hle

end LinkState

end Deskhand
