import Deskhand.Proofs.Drafting

/-!
# What is laid out of a document

The instructions that stand for a document before anything is linked (`SkillDocument.instructions`),
and those of several documents one after another (`layout`). A draft that holds documents
(`Draft.Holds`) is laid out so, every call in it has a reference of its own document, and it knows
where the steps of its documents begin (`placed`). Taking up one more document puts its instructions
behind the others (`Draft.Holds.pushDocument`).
-/

namespace Deskhand

/-! ## Tables -/

namespace Entries

variable {α : Type}

theorem get?_putNew (name other : String) (v : α) (es : Entries α) :
    (es.putNew name v).get? other = (es.get? other).or (if other = name then some v else none) := by
  unfold putNew has
  split
  · next h =>
    split
    · next heq =>
      subst heq
      obtain ⟨w, hw⟩ := Option.isSome_iff_exists.1 h
      rw [hw]
      rfl
    · exact Option.or_none.symm
  · next h =>
    have hnone : es.get? name = none := Option.not_isSome_iff_eq_none.1 h
    split
    · next heq =>
      subst heq
      rw [get?_put_self, hnone]
      rfl
    · next hne => rw [get?_put_of_ne v es hne, Option.or_none]

theorem get?_putNew_of_some {name other : String} (v : α) {w : α} {es : Entries α}
    (h : es.get? other = some w) : (es.putNew name v).get? other = some w := by
  rw [get?_putNew, h]
  rfl

theorem get?_putNew_of_ne {name other : String} (v : α) (es : Entries α) (h : other ≠ name) :
    (es.putNew name v).get? other = es.get? other := by
  rw [get?_putNew, if_neg h, Option.or_none]

theorem mem_of_get? {name : String} {v : α} {es : Entries α} (h : es.get? name = some v) :
    (name, v) ∈ es := by
  induction es with
  | nil => cases h
  | cons e rest ih =>
    unfold get? at h
    split at h
    · next heq =>
      cases h
      subst heq
      exact List.mem_cons_self
    · exact List.mem_cons_of_mem _ (ih h)

end Entries

/-! ## Documents -/

/-- The steps are in the order of their numbers, and no two of them share one. -/
def SkillDocument.Numbered (doc : SkillDocument) : Prop :=
  doc.steps.Pairwise fun a b => a.number < b.number

instance (doc : SkillDocument) : Decidable doc.Numbered :=
  inferInstanceAs (Decidable (List.Pairwise _ _))

theorem SkillDocument.numbered_of_duplicate? {steps : List RawStep}
    (hsorted : steps.Pairwise fun a b => a.number ≤ b.number) (h : duplicate? steps = none) :
    steps.Pairwise fun a b => a.number < b.number := by
  induction steps with
  | nil => exact .nil
  | cons a rest ih =>
    obtain ⟨ha, hrest⟩ := List.pairwise_cons.1 hsorted
    cases rest with
    | nil => exact List.pairwise_singleton _ _
    | cons b rest =>
      unfold duplicate? at h
      split at h
      · cases h
      · next hne =>
        have hlt : a.number < b.number := Nat.lt_of_le_of_ne (ha b List.mem_cons_self) hne
        have hordered := ih hrest h
        refine List.pairwise_cons.2 ⟨fun c hc => ?_, hordered⟩
        rcases List.mem_cons.1 hc with rfl | hc
        · exact hlt
        · exact Nat.lt_trans hlt ((List.pairwise_cons.1 hordered).1 c hc)

/-- A document that was read has its steps in order. -/
theorem SkillDocument.numbered_of_ofValue {name : String} {v : Value} {doc : SkillDocument}
    (h : ofValue name v = .ok doc) : doc.Numbered := by
  unfold ofValue at h
  split at h
  · obtain ⟨⟨header, steps⟩, -, h⟩ := bind_eq_ok h
    dsimp only at h
    split at h
    · cases h
    · next hduplicate =>
      cases h
      refine numbered_of_duplicate? ?_ hduplicate
      have hsorted : (steps.mergeSort fun a b => decide (a.number ≤ b.number)).Pairwise
          fun a b => decide (a.number ≤ b.number) :=
        List.pairwise_mergeSort
          (fun a b c hab hbc => by simpa using Nat.le_trans (by simpa using hab) (by simpa using hbc))
          (fun a b => by simpa using Nat.le_total a.number b.number) steps
      exact hsorted.imp fun hle => by simpa using hle
  · cases h

theorem SkillDocument.numbered_of_parse {name text : String} {doc : SkillDocument}
    (h : parse name text = .ok doc) : doc.Numbered := by
  unfold parse at h
  split at h
  · exact numbered_of_ofValue h
  · cases h

/-! ## Calls -/

/-- The function or the skill that a call names. -/
def Op.callee? : Op → Option Reference
  | callFunction name .. => some (.function name)
  | useSkill key .. | overloadSkill key .. => some (.skill key)
  | _ => none

namespace RawStep

/-- The key of the skill that a step calls. -/
def calledSkill? (s : RawStep) : Option String :=
  match s.code 0 with
  | .ok c => c.calledSkill?
  | .error _ => none

/-- The position of a document matters for the names of counters only. -/
theorem code_of_ne {s : RawStep} (h : s.kind ≠ "Repeat") (document document' : Nat) :
    s.code document = s.code document' := by
  unfold code
  split
  case h_2 hkind => exact absurd hkind h
  all_goals rfl

theorem code_of_repeat {s : RawStep} (h : s.kind = "Repeat") (document : Nat) :
    s.code document = s.loopCode document := by
  simp only [code, h]

theorem refers_of_loopCode {s : RawStep} {document : Nat} {c : StepCode}
    (h : s.loopCode document = .ok c) : c.refers = none := by
  obtain ⟨r, -, h⟩ := bind_eq_ok h
  dsimp only at h
  split at h
  · cases h
    rfl
  · split at h
    · cases h
    · cases h
      rfl

theorem calledSkill?_of_code {s : RawStep} {document : Nat} {c : StepCode}
    (h : s.code document = .ok c) : s.calledSkill? = c.calledSkill? := by
  unfold calledSkill?
  by_cases hkind : s.kind = "Repeat"
  · rw [code_of_repeat hkind] at h ⊢
    have hnone : c.calledSkill? = none := by
      unfold StepCode.calledSkill?
      rw [refers_of_loopCode h]
    rw [hnone]
    split
    · next c' h' =>
      unfold StepCode.calledSkill?
      rw [refers_of_loopCode h']
    · rfl
  · rw [code_of_ne hkind 0 document, h]

/-- The instructions of a step of the document at a position, before anything is linked. -/
def instructions (name : String) (document : Nat) (s : RawStep) : List Instruction :=
  match s.code document with
  | .ok c => c.setup.toList.map (⟨⟨name, s.number, true⟩, ·⟩) ++ [⟨⟨name, s.number, false⟩, c.op⟩]
  | .error _ => []

theorem instructions_of_code (name : String) {document : Nat} {s : RawStep} {c : StepCode}
    (h : s.code document = .ok c) : s.instructions name document =
      c.setup.toList.map (⟨⟨name, s.number, true⟩, ·⟩) ++ [⟨⟨name, s.number, false⟩, c.op⟩] := by
  unfold instructions
  rw [h]

theorem length_instructions_of_code (name : String) {document : Nat} {s : RawStep} {c : StepCode}
    (h : s.code document = .ok c) :
    (s.instructions name document).length = c.setup.toList.length + 1 := by
  rw [instructions_of_code name h, List.length_append, List.length_map, List.length_singleton]

/-- The reference of a step of the document at a position whose instructions begin at an index. -/
def openReferences (document start : Nat) (s : RawStep) : List OpenReference :=
  match s.code document with
  | .ok c => c.refers.toList.map (⟨start + c.setup.toList.length, document, ·⟩)
  | .error _ => []

theorem openReferences_of_code {document start : Nat} {s : RawStep} {c : StepCode}
    (h : s.code document = .ok c) : s.openReferences document start =
      c.refers.toList.map (⟨start + c.setup.toList.length, document, ·⟩) := by
  unfold openReferences
  rw [h]

/-- A reference belongs to the last instruction of its step. -/
theorem index_of_mem_openReferences {document start : Nat} {s : RawStep} {r : OpenReference}
    (h : r ∈ s.openReferences document start) (name : String) :
    r.index + 1 = start + (s.instructions name document).length := by
  unfold openReferences at h
  split at h
  · next c hc =>
    obtain ⟨refers, -, rfl⟩ := List.mem_map.1 h
    rw [length_instructions_of_code name hc]
    rfl
  · cases h

end RawStep

/-! ## Where steps begin -/

/-- The steps of the document at a position with the indices at which their instructions begin, if
those of the first one begin at `start`. -/
def placed (name : String) (document : Nat) : Nat → List RawStep → List (RawStep × Nat)
  | _, [] => []
  | start, s :: rest =>
    (s, start) :: placed name document (start + (s.instructions name document).length) rest

theorem placed_append (name : String) (document start : Nat) (before after : List RawStep) :
    placed name document start (before ++ after) = placed name document start before ++
      placed name document (start + (before.flatMap (·.instructions name document)).length) after := by
  induction before generalizing start with
  | nil => rfl
  | cons s rest ih =>
    rw [List.cons_append, placed, placed, ih, List.flatMap_cons, List.length_append,
      Nat.add_assoc, List.cons_append]

/-- A step that is found begins where the instructions of those before it end. -/
theorem eq_append_of_find?_placed {name : String} {document start : Nat} {steps : List RawStep}
    {p : RawStep → Bool} {e : RawStep × Nat}
    (h : (placed name document start steps).find? (fun e => p e.1) = some e) :
    ∃ before after, steps = before ++ e.1 :: after ∧ p e.1 ∧ (∀ s ∈ before, ¬p s) ∧
      e.2 = start + (before.flatMap (·.instructions name document)).length := by
  induction steps generalizing start with
  | nil => cases h
  | cons s rest ih =>
    rw [placed, List.find?_cons] at h
    split at h
    · next hs =>
      cases h
      exact ⟨[], rest, rfl, hs, nofun, rfl⟩
    · next hs =>
      obtain ⟨before, after, rfl, he, hbefore, hindex⟩ := ih h
      refine ⟨s :: before, after, rfl, he, List.forall_mem_cons.2 ⟨by simp [hs], hbefore⟩, ?_⟩
      rw [hindex, List.flatMap_cons, List.length_append, Nat.add_assoc]

theorem le_index_of_placed {name : String} {document start : Nat} {steps : List RawStep}
    {r : OpenReference}
    (h : r ∈ (placed name document start steps).flatMap fun e => e.1.openReferences document e.2) :
    start ≤ r.index := by
  induction steps generalizing start with
  | nil => cases h
  | cons s rest ih =>
    rw [placed, List.flatMap_cons] at h
    rcases List.mem_append.1 h with h | h
    · unfold RawStep.openReferences at h
      split at h
      · obtain ⟨refers, -, rfl⟩ := List.mem_map.1 h
        exact Nat.le_add_right _ _
      · cases h
    · exact Nat.le_trans (Nat.le_add_right _ _) (ih h)

/-- No two references belong to one instruction. -/
theorem pairwise_placed (name : String) (document start : Nat) (steps : List RawStep) :
    ((placed name document start steps).flatMap fun e => e.1.openReferences document e.2).Pairwise
      fun r r' => r.index < r'.index := by
  induction steps generalizing start with
  | nil => exact .nil
  | cons s rest ih =>
    rw [placed, List.flatMap_cons]
    refine List.pairwise_append.2 ⟨?_, ih _, fun r hr r' hr' => ?_⟩
    · unfold RawStep.openReferences
      split
      · next c _ =>
        cases c.refers with
        | none => exact .nil
        | some refers => exact List.pairwise_singleton _ _
      · exact .nil
    · have hlast : r.index + 1 = start + (s.instructions name document).length :=
        RawStep.index_of_mem_openReferences hr name
      have hfirst := le_index_of_placed hr'
      omega

namespace SkillDocument

/-- The keys of the skills that a document calls, in the order of its steps. -/
def calls (doc : SkillDocument) : List String := doc.steps.filterMap RawStep.calledSkill?

/-- The number of the last step. -/
def lastNumber (doc : SkillDocument) : Nat := (doc.steps.getLast?.map (·.number)).getD 0

/-- What ends a document at a position: the main document, which is the first, ends the program, and
every other one a skill. -/
def ending (document : Nat) (doc : SkillDocument) : Op :=
  if document = 0 then .finish else .stub (.endSkill doc.name)

/-- The instructions of the document at a position, before anything is linked. -/
def instructions (document : Nat) (doc : SkillDocument) : List Instruction :=
  doc.steps.flatMap (·.instructions doc.name document) ++
    [⟨⟨doc.name, doc.lastNumber, true⟩, doc.ending document⟩]

/-- The references of the document at a position that begins at an index. -/
def openReferences (document start : Nat) (doc : SkillDocument) : List OpenReference :=
  (placed doc.name document start doc.steps).flatMap fun e => e.1.openReferences document e.2

/-- Where the steps of the document at a position begin, by number, if it begins at an index. -/
def stepTable (document start : Nat) (doc : SkillDocument) : List (Nat × Nat) :=
  (placed doc.name document start doc.steps).map fun e => (e.1.number, e.2)

theorem length_instructions_pos (document : Nat) (doc : SkillDocument) :
    0 < (doc.instructions document).length := by
  unfold instructions
  rw [List.length_append]
  exact Nat.succ_pos _

/-- Every instruction of a document has its name. -/
theorem skill_of_mem_instructions {document : Nat} {doc : SkillDocument} {i : Instruction}
    (h : i ∈ doc.instructions document) : i.address.skill = doc.name := by
  rcases List.mem_append.1 h with h | h
  · obtain ⟨s, -, hi⟩ := List.mem_flatMap.1 h
    unfold RawStep.instructions at hi
    split at hi
    · rcases List.mem_append.1 hi with hi | hi
      · obtain ⟨op, -, rfl⟩ := List.mem_map.1 hi
        rfl
      · rw [List.mem_singleton.1 hi]
    · cases hi
  · rw [List.mem_singleton.1 h]

end SkillDocument

/-- The instructions of documents one after another, before anything is linked. -/
def layout (docs : List SkillDocument) : List Instruction :=
  docs.zipIdx.flatMap fun e => e.1.instructions e.2

@[simp] theorem layout_nil : layout [] = [] := rfl

@[simp] theorem layout_append (docs : List SkillDocument) (doc : SkillDocument) :
    layout (docs ++ [doc]) = layout docs ++ doc.instructions docs.length := by
  simp [layout, List.zipIdx_append]

/-- The range of the document at a position. -/
def spanIn (docs : List SkillDocument) (k : Nat) (doc : SkillDocument) : DocumentSpan :=
  ⟨doc.name, (layout (docs.take k)).length, (layout (docs.take (k + 1))).length⟩

theorem layout_take_succ {docs : List SkillDocument} {k : Nat} {doc : SkillDocument}
    (h : docs[k]? = some doc) :
    layout (docs.take (k + 1)) = layout (docs.take k) ++ doc.instructions k := by
  obtain ⟨hk, -⟩ := List.getElem?_eq_some_iff.1 h
  rw [List.take_add_one, h, Option.toList_some, layout_append,
    List.length_take_of_le (Nat.le_of_lt hk)]

theorem spanIn_stop {docs : List SkillDocument} {k : Nat} {doc : SkillDocument}
    (hk : docs[k]? = some doc) :
    (spanIn docs k doc).stop = (spanIn docs k doc).start + (doc.instructions k).length := by
  unfold spanIn
  rw [layout_take_succ hk, List.length_append]

theorem layout_take_isPrefix (docs : List SkillDocument) (n : Nat) :
    layout (docs.take n) <+: layout docs := by
  have hsplit : layout docs = layout (docs.take n) ++
      ((docs.drop n).zipIdx (docs.take n).length).flatMap fun e => e.1.instructions e.2 := by
    unfold layout
    rw [← List.flatMap_append, ← Nat.zero_add (docs.take n).length, ← List.zipIdx_append,
      List.take_append_drop]
  exact ⟨_, hsplit.symm⟩

/-- In the range of a document its instructions stand. -/
theorem getElem?_layout {docs : List SkillDocument} {k : Nat} {doc : SkillDocument}
    (h : docs[k]? = some doc) {j : Nat} (hle : (spanIn docs k doc).start ≤ j)
    (hlt : j < (spanIn docs k doc).stop) :
    (layout docs)[j]? = (doc.instructions k)[j - (spanIn docs k doc).start]? := by
  obtain ⟨rest, hrest⟩ := layout_take_isPrefix docs (k + 1)
  rw [← hrest, List.getElem?_append_left hlt, layout_take_succ h, List.getElem?_append_right hle]
  rfl

theorem spanIn_append {docs : List SkillDocument} {k : Nat} {doc : SkillDocument}
    (h : docs[k]? = some doc) (more : List SkillDocument) :
    spanIn (docs ++ more) k doc = spanIn docs k doc := by
  obtain ⟨hk, -⟩ := List.getElem?_eq_some_iff.1 h
  unfold spanIn
  rw [List.take_append_of_le_length (Nat.le_of_lt hk), List.take_append_of_le_length hk]

namespace Draft

/-! ## Taking up documents -/

/-- The reference belongs to an instruction, and is what it calls if it calls something. -/
def Owns (r : OpenReference) (d : Draft) : Prop :=
  ∃ op, d.op? r.index = some op ∧ ∀ refers, op.callee? = some refers → r.refers = refers

/-- A draft to which instructions of the document at a position were added, with a reference for
every call among them. -/
structure Extends (document : Nat) (code : List Instruction) (d d' : Draft) : Prop where
  code : d'.instructions.toList = d.instructions.toList ++ code
  sections : d'.sections = d.sections
  skills : d'.skills = d.skills
  kept : ∀ r ∈ d.references, r ∈ d'.references
  owned : ∀ r ∈ d'.references,
    r ∈ d.references ∨ r.document = document ∧ d.size ≤ r.index ∧ d'.Owns r
  noted : ∀ j op refers, d.size ≤ j → d'.op? j = some op → op.callee? = some refers →
    ∃ r ∈ d'.references, r.index = j ∧ r.refers = refers

section Extends

variable {document : Nat} {code code' : List Instruction} {d d' d'' : Draft}

theorem Extends.size (h : Extends document code d d') : d'.size = d.size + code.length := by
  unfold Draft.size
  rw [← Array.length_toList, h.code, List.length_append, Array.length_toList]

theorem op?_eq_toList (d : Draft) (j : Nat) : d.op? j = d.instructions.toList[j]?.map (·.op) := by
  unfold op?
  rw [Array.getElem?_toList]

theorem Extends.op? (h : Extends document code d d') {j : Nat} (hj : j < d.size) :
    d'.op? j = d.op? j := by
  rw [op?_eq_toList, op?_eq_toList, h.code, List.getElem?_append_left hj]

theorem Extends.owns (h : Extends document code d d') {r : OpenReference} (hr : d.Owns r) :
    d'.Owns r := by
  obtain ⟨op, hop, hcallee⟩ := hr
  exact ⟨op, (h.op? (lt_size_of_op? hop)).trans hop, hcallee⟩

theorem Extends.refl (document : Nat) (d : Draft) : Extends document [] d d where
  code := (List.append_nil _).symm
  sections := rfl
  skills := rfl
  kept _ hr := hr
  owned _ hr := .inl hr
  noted _ _ _ hj hop _ := absurd (lt_size_of_op? hop) (Nat.not_lt.2 hj)

theorem Extends.trans (h : Extends document code d d') (h' : Extends document code' d' d'') :
    Extends document (code ++ code') d d'' where
  code := by rw [h'.code, h.code, List.append_assoc]
  sections := h'.sections.trans h.sections
  skills := h'.skills.trans h.skills
  kept r hr := h'.kept r (h.kept r hr)
  owned r hr := by
    rcases h'.owned r hr with hr | ⟨hdoc, hle, howns⟩
    · rcases h.owned r hr with hr | ⟨hdoc, hle, howns⟩
      · exact .inl hr
      · exact .inr ⟨hdoc, hle, h'.owns howns⟩
    · exact .inr ⟨hdoc, Nat.le_trans (h.size ▸ Nat.le_add_right _ _) hle, howns⟩
  noted j op refers hj hop hcallee := by
    rcases Nat.lt_or_ge j d'.size with hlt | hge
    · rw [h'.op? hlt] at hop
      obtain ⟨r, hr, hindex⟩ := h.noted j op refers hj hop hcallee
      exact ⟨r, h'.kept r hr, hindex⟩
    · exact h'.noted j op refers hge hop hcallee

/-- An instruction that calls nothing needs no reference. -/
theorem Extends.push (document : Nat) {i : Instruction} (hi : i.op.callee? = none) (d : Draft) :
    Extends document [i] d (d.push i) where
  code := Array.toList_push
  sections := rfl
  skills := rfl
  kept _ hr := hr
  owned _ hr := .inl hr
  noted j op refers hj hop hcallee := by
    rw [op?_push] at hop
    split at hop
    · cases hop
      rw [hi] at hcallee
      cases hcallee
    · exact absurd (lt_size_of_op? hop) (Nat.not_lt.2 hj)

end Extends

/-- The code of a step that calls something refers to it. -/
theorem refers_of_callee {document : Nat} {s : RawStep} {c : StepCode} {refers : Reference}
    (h : s.code document = .ok c) (hcallee : c.op.callee? = some refers) :
    c.refers = some refers := by
  cases coded h with
  | callFunction | useSkill | overloadSkill => exact hcallee
  | _ => cases hcallee

theorem pushCode_extends {name : String} {document : Nat} {s : RawStep} {c : StepCode}
    (h : s.code document = .ok c) (d : Draft) :
    Extends document (s.instructions name document) d (d.pushCode name document s.number c) := by
  obtain ⟨refs, handlers, heq, hrefs, -⟩ := pushCode_eq name document s.number c d
  have hsetup : Extends document (c.setup.toList.map (⟨⟨name, s.number, true⟩, ·⟩)) d
      (d.setUp name s.number c) := by
    unfold setUp
    cases hs : c.setup with
    | none => exact .refl document d
    | some op =>
      obtain ⟨kind, args, rfl⟩ := (code_refers h).setup op hs
      exact .push document rfl d
  rw [heq, RawStep.instructions_of_code name h]
  refine hsetup.trans ?_
  generalize d.setUp name s.number c = e at *
  refine ⟨Array.toList_push, rfl, rfl, fun r hr => ?_, fun r hr => ?_, ?_⟩
  · rcases hrefs with ⟨-, rfl⟩ | ⟨refers, -, rfl⟩
    · exact hr
    · exact List.mem_append_left _ hr
  · rcases hrefs with ⟨-, rfl⟩ | ⟨refers, hsome, rfl⟩
    · exact .inl hr
    · rcases List.mem_append.1 hr with hr | hr
      · exact .inl hr
      · obtain rfl := List.mem_singleton.1 hr
        refine .inr ⟨rfl, Nat.le_refl _, c.op, op?_push_self _ e, fun refers' hcallee => ?_⟩
        rw [refers_of_callee h hcallee] at hsome
        exact (Option.some.inj hsome).symm
  · intro j op refers hj hop hcallee
    change (e.push _).op? j = some op at hop
    rw [op?_push] at hop
    split at hop
    · next hlast =>
      cases hop
      rcases hrefs with ⟨hnone, -⟩ | ⟨refers', hsome, rfl⟩
      · rw [refers_of_callee h hcallee] at hnone
        cases hnone
      · rw [refers_of_callee h hcallee] at hsome
        cases hsome
        exact ⟨_, List.mem_append_right _ List.mem_cons_self, hlast.symm, rfl⟩
    · exact absurd (lt_size_of_op? hop) (Nat.not_lt.2 hj)

theorem pushSteps_extends (name : String) (document : Nat) (steps : List RawStep) {d d' : Draft}
    {table : List (Nat × Nat)} {keys : List String}
    (h : pushSteps name document steps d = .ok (d', table, keys)) :
    Extends document (steps.flatMap (·.instructions name document)) d d' ∧
      keys = steps.filterMap RawStep.calledSkill? := by
  induction steps generalizing d table keys with
  | nil =>
    cases h
    exact ⟨.refl document _, rfl⟩
  | cons s rest ih =>
    obtain ⟨c, hc, h⟩ := bind_eq_ok h
    obtain ⟨⟨after, steps, keys'⟩, hrest, h⟩ := bind_eq_ok h
    cases h
    obtain ⟨hextends, rfl⟩ := ih hrest
    refine ⟨(pushCode_extends hc d).trans hextends, ?_⟩
    rw [List.filterMap_cons, RawStep.calledSkill?_of_code hc]
    cases c.calledSkill? <;> rfl

theorem pushCode_references (name : String) {document : Nat} {s : RawStep} {c : StepCode}
    (h : s.code document = .ok c) (d : Draft) :
    (d.pushCode name document s.number c).references =
      d.references ++ s.openReferences document d.size := by
  obtain ⟨refs, handlers, heq, hrefs, -⟩ := pushCode_eq name document s.number c d
  have hsetup : (d.setUp name s.number c).references = d.references ∧
      (d.setUp name s.number c).size = d.size + c.setup.toList.length := by
    unfold setUp
    cases c.setup with
    | none => exact ⟨rfl, rfl⟩
    | some op => exact ⟨rfl, size_push _ _⟩
  rw [heq, RawStep.openReferences_of_code h]
  change refs = _
  rw [hsetup.1, hsetup.2] at hrefs
  rcases hrefs with ⟨hnone, rfl⟩ | ⟨refers, hsome, rfl⟩
  · rw [hnone]
    exact (List.append_nil _).symm
  · rw [hsome]
    rfl

/-- The steps that are taken up have code, and are noted with the indices at which they begin. -/
theorem pushSteps_placed (name : String) (document : Nat) (steps : List RawStep) {d d' : Draft}
    {table : List (Nat × Nat)} {keys : List String}
    (h : pushSteps name document steps d = .ok (d', table, keys)) :
    (∀ s ∈ steps, ∃ c, s.code document = .ok c) ∧
      table = (placed name document d.size steps).map (fun e => (e.1.number, e.2)) ∧
      d'.references = d.references ++
        (placed name document d.size steps).flatMap fun e => e.1.openReferences document e.2 := by
  induction steps generalizing d table keys with
  | nil =>
    cases h
    exact ⟨nofun, rfl, (List.append_nil _).symm⟩
  | cons s rest ih =>
    obtain ⟨c, hc, h⟩ := bind_eq_ok h
    obtain ⟨⟨after, steps, keys'⟩, hrest, h⟩ := bind_eq_ok h
    cases h
    obtain ⟨hcoded, rfl, hreferences⟩ := ih hrest
    rw [(pushCode_extends hc d).size] at hreferences ⊢
    refine ⟨List.forall_mem_cons.2 ⟨⟨c, hc⟩, hcoded⟩, rfl, ?_⟩
    rw [hreferences, pushCode_references name hc, placed, List.flatMap_cons, List.append_assoc]

/-- A call of a skill that is laid out is one of its document. -/
theorem mem_calls_of_layout {docs : List SkillDocument} {i : Instruction} {key : String}
    (hi : i ∈ layout docs) (hcallee : i.op.callee? = some (.skill key)) :
    ∃ doc ∈ docs, key ∈ doc.calls := by
  obtain ⟨⟨doc, k⟩, hdoc, hi⟩ := List.mem_flatMap.1 hi
  refine ⟨doc, (List.mem_zipIdx hdoc).2.2 ▸ List.getElem_mem _, ?_⟩
  rcases List.mem_append.1 hi with hi | hi
  · obtain ⟨s, hs, hi⟩ := List.mem_flatMap.1 hi
    refine List.mem_filterMap.2 ⟨s, hs, ?_⟩
    unfold RawStep.instructions at hi
    split at hi
    · next c hc =>
      rw [RawStep.calledSkill?_of_code hc]
      rcases List.mem_append.1 hi with hi | hi
      · obtain ⟨op, hop, rfl⟩ := List.mem_map.1 hi
        obtain ⟨kind, args, rfl⟩ := (code_refers hc).setup op (Option.mem_toList.1 hop)
        cases hcallee
      · obtain rfl := List.mem_singleton.1 hi
        unfold StepCode.calledSkill?
        rw [refers_of_callee hc hcallee]
    · cases hi
  · obtain rfl := List.mem_singleton.1 hi
    change (doc.ending k).callee? = _ at hcallee
    unfold SkillDocument.ending at hcallee
    split at hcallee <;> cases hcallee

/-- A document that is taken up is noted with its range and its name. -/
theorem pushDocument_extends {doc : SkillDocument} {last : Op} {d d' : Draft} {keys : List String}
    (hlast : last = doc.ending d.sections.size) (h : d.pushDocument doc last = .ok (d', keys)) :
    ∃ f : Draft, Extends d.sections.size (doc.instructions d.sections.size) d f ∧
      keys = doc.calls ∧ (∀ s ∈ doc.steps, ∃ c, s.code d.sections.size = .ok c) ∧
      f.references = d.references ++ doc.openReferences d.sections.size d.size ∧
      d' = { f with
        sections := f.sections.push
          ⟨⟨doc.name, d.size, f.size⟩, doc.stepTable d.sections.size d.size, [], []⟩
        skills := f.skills.putNew doc.name d.size } := by
  obtain ⟨⟨e, table, keys'⟩, he, h⟩ := bind_eq_ok h
  obtain ⟨hsteps, rfl⟩ := pushSteps_extends _ _ _ he
  obtain ⟨hcoded, rfl, hreferences⟩ := pushSteps_placed _ _ _ he
  cases h
  have hcallee : last.callee? = none := by
    rw [hlast]
    unfold SkillDocument.ending
    split <;> rfl
  refine ⟨e.push ⟨⟨doc.name, doc.lastNumber, true⟩, last⟩, ?_, rfl, hcoded, hreferences, rfl⟩
  have hall := hsteps.trans
    (.push d.sections.size (i := ⟨⟨doc.name, doc.lastNumber, true⟩, last⟩) hcallee e)
  rwa [hlast] at hall ⊢

theorem getElem?_append_singleton {α : Type} {l : List α} {a b : α} {k : Nat}
    (h : (l ++ [a])[k]? = some b) : l[k]? = some b ∨ k = l.length ∧ b = a := by
  rw [List.getElem?_append] at h
  split at h
  · exact .inl h
  · rw [List.getElem?_singleton] at h
    split at h
    · cases h
      exact .inr ⟨by omega, rfl⟩
    · cases h

/-- All steps of documents have code; a draft knows where they begin, and has their references, each of
an instruction of its own. None of the tags is known yet. -/
structure Indexed (docs : List SkillDocument) (d : Draft) : Prop where
  coded : ∀ (k : Nat) (doc : SkillDocument), docs[k]? = some doc →
    ∀ s ∈ doc.steps, ∃ c, s.code k = .ok c
  labels : ∀ (k : Nat) (sec : Section) (doc : SkillDocument), d.sections[k]? = some sec →
    docs[k]? = some doc → sec.tags = [] ∧ sec.steps = doc.stepTable k sec.span.start
  referring : ∀ (k : Nat) (doc : SkillDocument), docs[k]? = some doc →
    ∀ r ∈ doc.openReferences k (spanIn docs k doc).start, r ∈ d.references
  ordered : d.references.Pairwise fun r r' => r.index < r'.index

theorem Indexed.pushDocument {docs : List SkillDocument} {doc : SkillDocument} {d d' : Draft}
    {stop : Nat} (hd : d.Indexed docs) (hcount : d.sections.size = docs.length)
    (hsize : d.size = (layout docs).length) (hindices : ∀ r ∈ d.references, r.index < d.size)
    (hcoded : ∀ s ∈ doc.steps, ∃ c, s.code docs.length = .ok c)
    (hsections : d'.sections = d.sections.push
      ⟨⟨doc.name, d.size, stop⟩, doc.stepTable docs.length d.size, [], []⟩)
    (hreferences : d'.references = d.references ++ doc.openReferences docs.length d.size) :
    d'.Indexed (docs ++ [doc]) where
  coded k doc' hdoc := by
    rcases getElem?_append_singleton hdoc with hdoc | ⟨rfl, rfl⟩
    · exact hd.coded k doc' hdoc
    · exact hcoded
  labels k sec doc' hk hdoc := by
    rw [hsections, Array.getElem?_push, hcount] at hk
    rcases getElem?_append_singleton hdoc with hdoc | ⟨rfl, rfl⟩
    · obtain ⟨hlt, -⟩ := List.getElem?_eq_some_iff.1 hdoc
      rw [if_neg (Nat.ne_of_lt hlt)] at hk
      exact hd.labels k sec doc' hk hdoc
    · rw [if_pos rfl] at hk
      cases hk
      exact ⟨rfl, rfl⟩
  referring k doc' hdoc r hr := by
    rw [hreferences]
    rcases getElem?_append_singleton hdoc with hdoc | ⟨rfl, rfl⟩
    · rw [spanIn_append hdoc] at hr
      exact List.mem_append_left _ (hd.referring k doc' hdoc r hr)
    · rw [spanIn, List.take_left, ← hsize] at hr
      exact List.mem_append_right _ hr
  ordered := by
    rw [hreferences]
    exact List.pairwise_append.2 ⟨hd.ordered, pairwise_placed _ _ _ _, fun r hr r' hr' =>
      Nat.lt_of_lt_of_le (hindices r hr) (le_index_of_placed hr')⟩

/-- A draft holds documents: they are laid out one after another, none of them is linked, and every
call has a reference that knows its document. -/
structure Holds (docs : List SkillDocument) (d : Draft) : Prop where
  code : d.instructions.toList = layout docs
  count : d.sections.size = docs.length
  sections : ∀ (k : Nat) (sec : Section), d.sections[k]? = some sec →
    ∃ doc, docs[k]? = some doc ∧ sec.span = spanIn docs k doc ∧ sec.functions = []
  owned : ∀ r ∈ d.references, d.Owns r ∧ ∃ sec, d.sections[r.document]? = some sec ∧
    sec.span.start ≤ r.index ∧ r.index < sec.span.stop
  noted : ∀ j op refers, d.op? j = some op → op.callee? = some refers →
    ∃ r ∈ d.references, r.index = j ∧ r.refers = refers
  indexed : d.Indexed docs

theorem Holds.empty : Draft.empty.Holds [] where
  code := rfl
  count := rfl
  sections _ _ h := by cases h
  owned := nofun
  noted _ _ _ h := by cases h
  indexed := ⟨nofun, nofun, nofun, .nil⟩

theorem Holds.skills {docs : List SkillDocument} {d : Draft} (h : d.Holds docs)
    (skills : Entries Nat) : ({ d with skills } : Draft).Holds docs :=
  ⟨h.code, h.count, h.sections, h.owned, h.noted,
    h.indexed.coded, h.indexed.labels, h.indexed.referring, h.indexed.ordered⟩

/-- Nothing is known of a document that is not linked. -/
theorem Holds.unlinked {docs : List SkillDocument} {d : Draft} (h : d.Holds docs) {k : Nat}
    {sec : Section} (hk : d.sections[k]? = some sec) : sec.functions = [] ∧ sec.tags = [] := by
  obtain ⟨doc, hdoc, -, hfunctions⟩ := h.sections k sec hk
  exact ⟨hfunctions, (h.indexed.labels k sec doc hk hdoc).1⟩

theorem Holds.size {docs : List SkillDocument} {d : Draft} (h : d.Holds docs) :
    d.size = (layout docs).length := by
  unfold Draft.size
  rw [← Array.length_toList, h.code]

theorem Holds.index_lt {docs : List SkillDocument} {d : Draft} (h : d.Holds docs)
    {r : OpenReference} (hr : r ∈ d.references) : r.index < d.size := by
  obtain ⟨⟨op, hop, -⟩, -⟩ := h.owned r hr
  exact lt_size_of_op? hop

/-- One more document is taken up behind the others. -/
theorem Holds.pushDocument {docs : List SkillDocument} {doc : SkillDocument} {last : Op}
    {d d' : Draft} {keys : List String} (hd : d.Holds docs) (hlast : last = doc.ending docs.length)
    (h : d.pushDocument doc last = .ok (d', keys)) :
    d'.Holds (docs ++ [doc]) ∧ keys = doc.calls ∧
      d'.skills = d.skills.putNew doc.name (layout docs).length := by
  obtain ⟨f, hextends, hkeys, hcoded, hreferences, rfl⟩ :=
    pushDocument_extends (hd.count.symm ▸ hlast) h
  rw [hd.count] at hcoded hreferences
  have hsize : f.size = (layout (docs ++ [doc])).length := by
    rw [hextends.size, hd.size, layout_append, List.length_append, hd.count]
  have hsections : ∀ (k : Nat) (sec : Section),
      (f.sections.push
          ⟨⟨doc.name, d.size, f.size⟩, doc.stepTable d.sections.size d.size, [], []⟩)[k]? = some sec ↔
        k = docs.length ∧
          sec = ⟨⟨doc.name, d.size, f.size⟩, doc.stepTable docs.length d.size, [], []⟩ ∨
          d.sections[k]? = some sec := by
    intro k sec
    rw [hextends.sections, Array.getElem?_push, hd.count]
    split
    · next hk =>
      have hnone : d.sections[k]? = none :=
        Array.getElem?_eq_none (Nat.le_of_eq (hd.count.trans hk.symm))
      rw [hnone, Option.some_inj]
      exact ⟨fun h => .inl ⟨hk, h.symm⟩, fun h => (h.resolve_right nofun).2.symm⟩
    · next hk => exact ⟨.inr, fun h => h.resolve_left fun h => hk h.1⟩
  refine ⟨⟨?_, ?_, fun k sec hk => ?_, fun r hr => ?_, fun j op refers hop hcallee => ?_, ?_⟩,
    hkeys, ?_⟩
  · change f.instructions.toList = _
    rw [hextends.code, hd.code, hd.count, layout_append]
  · change (f.sections.push _).size = _
    rw [Array.size_push, hextends.sections, hd.count, List.length_append, List.length_singleton]
  · rcases (hsections k sec).1 hk with ⟨rfl, rfl⟩ | hk
    · refine ⟨doc, List.getElem?_concat_length, ?_, rfl⟩
      change DocumentSpan.mk doc.name d.size f.size = _
      rw [hsize, hd.size, spanIn, List.take_left, List.take_of_length_le (by simp)]
    · obtain ⟨old, hold, hspan, hfunctions⟩ := hd.sections k sec hk
      obtain ⟨hlt, -⟩ := List.getElem?_eq_some_iff.1 hold
      refine ⟨old, (List.getElem?_append_left hlt).trans hold, ?_, hfunctions⟩
      rw [hspan, spanIn_append hold]
  · rcases hextends.owned r hr with hr | ⟨hdoc, hle, howns⟩
    · obtain ⟨howns, sec, hsec, hin⟩ := hd.owned r hr
      exact ⟨hextends.owns howns, sec, (hsections _ _).2 (.inr hsec), hin⟩
    · obtain ⟨op, hop, -⟩ := id howns
      exact ⟨howns, _, (hsections _ _).2 (.inl ⟨hdoc.trans hd.count, rfl⟩), hle, lt_size_of_op? hop⟩
  · rcases Nat.lt_or_ge j d.size with hlt | hge
    · obtain ⟨r, hr, hindex⟩ := hd.noted j op refers ((hextends.op? hlt).symm.trans hop) hcallee
      exact ⟨r, hextends.kept r hr, hindex⟩
    · exact hextends.noted j op refers hge hop hcallee
  · have hpush : f.sections.push
        ⟨⟨doc.name, d.size, f.size⟩, doc.stepTable d.sections.size d.size, [], []⟩ =
          d.sections.push ⟨⟨doc.name, d.size, f.size⟩, doc.stepTable docs.length d.size, [], []⟩ := by
      rw [hextends.sections, hd.count]
    exact hd.indexed.pushDocument hd.count hd.size (fun r hr => hd.index_lt hr) hcoded hpush
      hreferences
  · change f.skills.putNew _ _ = _
    rw [hextends.skills, hd.size]

end Draft

end Deskhand
