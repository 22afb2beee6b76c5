import Deskhand.Proofs.Definitions
import Deskhand.Proofs.Gathering

/-!
# What calls are given

Looking references up gives every call the entry that the tables of the linked draft have for it
(`Draft.Calling`), and nothing else that was laid out of the documents changes but targets: a resolved
program is written of the documents that were taken up (`Program.Written`).
-/

namespace Deskhand

/-! ## Sorted tables -/

namespace Entries

variable {α : Type}

theorem get?_eq_some_iff {es : Entries α} (h : es.names.Nodup) {name : String} {v : α} :
    es.get? name = some v ↔ (name, v) ∈ es := by
  refine ⟨mem_of_get?, fun hmem => ?_⟩
  induction es with
  | nil => cases hmem
  | cons e rest ih =>
    obtain ⟨hnew, hrest⟩ := List.nodup_cons.1 h
    unfold get?
    rcases List.mem_cons.1 hmem with rfl | hmem
    · exact if_pos rfl
    · rw [if_neg, ih hrest hmem]
      exact fun heq => hnew (List.mem_map.2 ⟨(name, v), hmem, heq.symm⟩)

/-- What distinct names are bound to does not depend on the order. -/
theorem get?_of_perm {es es' : Entries α} (h : es.names.Nodup) (hperm : es'.Perm es)
    (name : String) : es'.get? name = es.get? name := by
  have h' : es'.names.Nodup := (hperm.map Prod.fst).nodup_iff.2 h
  refine Option.ext fun v => ?_
  rw [get?_eq_some_iff h', get?_eq_some_iff h, hperm.mem_iff]

theorem get?_sorted {es : Entries α} (h : es.names.Nodup) (name : String) :
    es.sorted.get? name = es.get? name :=
  get?_of_perm h (List.mergeSort_perm _ _) name

theorem mem_names_put {name other : String} {v : α} {es : Entries α}
    (h : other ∈ (es.put name v).names) : other = name ∨ other ∈ es.names := by
  induction es with
  | nil => exact .inl (List.mem_singleton.1 h)
  | cons e rest ih =>
    unfold put at h
    split at h
    · exact .inr h
    · rcases List.mem_cons.1 h with rfl | h
      · exact .inr List.mem_cons_self
      · exact (ih h).imp_right (List.mem_cons_of_mem _)

theorem nodup_put (name : String) (v : α) {es : Entries α} (h : es.names.Nodup) :
    (es.put name v).names.Nodup := by
  induction es with
  | nil => exact List.nodup_cons.2 ⟨List.not_mem_nil, .nil⟩
  | cons e rest ih =>
    obtain ⟨hnew, hrest⟩ := List.nodup_cons.1 h
    unfold put
    split
    · exact h
    · next hne =>
      exact List.nodup_cons.2 ⟨fun hin => (mem_names_put hin).elim hne hnew, ih hrest⟩

theorem nodup_putNew (name : String) (v : α) {es : Entries α} (h : es.names.Nodup) :
    (es.putNew name v).names.Nodup := by
  unfold putNew
  split
  · exact h
  · exact nodup_put name v h

/-- Names that are put one after another are bound to what they were bound to first. -/
theorem get?_foldl_putNew {β : Type} (g : α → β) (more : Entries α) (es : Entries β)
    (name : String) : (more.foldl (fun known f => known.putNew f.1 (g f.2)) es).get? name =
      (es.get? name).or ((more.get? name).map g) := by
  induction more generalizing es with
  | nil => exact Option.or_none.symm
  | cons e rest ih =>
    rw [List.foldl_cons, ih, get?_putNew, Option.or_assoc]
    congr 1
    by_cases heq : name = e.1
    · subst heq
      simp [get?]
    · simp [get?, heq, Ne.symm heq]

theorem nodup_foldl_putNew {β : Type} (g : α → β) (more : Entries α) {es : Entries β}
    (h : es.names.Nodup) :
    (more.foldl (fun known f => known.putNew f.1 (g f.2)) es).names.Nodup := by
  induction more generalizing es with
  | nil => exact h
  | cons e rest ih => exact ih (nodup_putNew _ _ h)

end Entries

/-! ## The table of functions -/

namespace Draft

/-- A name of a function means what the first document that knows it does. -/
theorem get?_functions (d : Draft) (f : String) :
    d.functions.get? f = d.sections.toList.findSome? fun sec => (sec.functions.get? f).map (·.1) := by
  have hall : ∀ (secs : List Section) (known : Entries Nat),
      (secs.foldl (fun known sec =>
        sec.functions.foldl (fun known f => known.putNew f.1 f.2.1) known) known).get? f =
      (known.get? f).or (secs.findSome? fun sec => (sec.functions.get? f).map (·.1)) := by
    intro secs
    induction secs with
    | nil => exact fun _ => Option.or_none.symm
    | cons sec rest ih =>
      intro known
      rw [List.foldl_cons, ih, Entries.get?_foldl_putNew (fun v : Nat × String => v.1),
        Option.or_assoc, List.findSome?_cons]
      cases (sec.functions.get? f).map (·.1) <;> rfl
  exact hall d.sections.toList []

theorem nodup_functions (d : Draft) : d.functions.names.Nodup := by
  have hall : ∀ (secs : List Section) (known : Entries Nat), known.names.Nodup →
      (secs.foldl (fun known sec =>
        sec.functions.foldl (fun known f => known.putNew f.1 f.2.1) known) known).names.Nodup := by
    intro secs
    induction secs with
    | nil => exact fun _ h => h
    | cons sec rest ih =>
      exact fun known h => ih _ (Entries.nodup_foldl_putNew (fun v : Nat × String => v.1) _ h)
  exact hall d.sections.toList [] List.nodup_nil

/-! ## Addresses -/

/-- Where the instructions of a draft come from. -/
def addresses (d : Draft) : List Address := d.instructions.toList.map (·.address)

@[simp] theorem addresses_modifyOp (k : Nat) (f : Op → Op) (d : Draft) :
    (d.modifyOp k f).addresses = d.addresses := by
  refine List.ext_getElem? fun j => ?_
  unfold addresses modifyOp
  rw [List.getElem?_map, List.getElem?_map, Array.getElem?_toList, Array.getElem?_toList,
    Array.getElem?_modify]
  split
  · cases d.instructions[j]? <;> rfl
  · rfl

@[simp] theorem addresses_setOp (k : Nat) (op : Op) (d : Draft) :
    (d.setOp k op).addresses = d.addresses := addresses_modifyOp k _ d

theorem addresses_foldl_setOp (breaks : List Nat) (op : Op) (d : Draft) :
    (breaks.foldl (fun d b => d.setOp b op) d).addresses = d.addresses := by
  induction breaks generalizing d with
  | nil => rfl
  | cons b rest ih => rw [List.foldl_cons, ih, addresses_setOp]

theorem addresses_of_visited {document index : Nat} {op : Op} {s s' : LinkState}
    (hv : s.Visited document index op s') : s'.draft.addresses = s.draft.addresses := by
  cases hv with
  | endLoop => simp only [addresses_foldl_setOp, addresses_setOp, addresses_modifyOp]
  | orElse | endWhen | endChoose | endFunction | endException =>
    simp only [addresses_setOp, addresses_modifyOp]
  | _ => rfl

theorem addresses_of_link {d d' : Draft} (h : d.link = .ok d') : d'.addresses = d.addresses := by
  refine foldlM_keeps (I := fun e : Draft => e.addresses = d.addresses)
    (fun document e e' he h => ?_) rfl h
  unfold linkDocument at h
  split at h
  · cases h
    exact he
  · obtain ⟨s, hs, h⟩ := bind_eq_ok h
    rw [LinkState.close_eq h]
    exact LinkState.visitFrom_keeps (I := fun s => s.draft.addresses = d.addresses)
      (fun _ _ _ _ hs hv => (addresses_of_visited hv).trans hs) _ _ he hs

theorem addresses_of_settleAll {refs : List OpenReference} {d d' : Draft}
    (h : refs.foldlM settle d = .ok d') : d'.addresses = d.addresses := by
  refine foldlM_keeps (I := fun e : Draft => e.addresses = d.addresses)
    (fun r e e' he h => ?_) rfl h
  cases settling h with
  | label => exact (addresses_setOp _ _ _).trans he
  | function | skill => exact (addresses_modifyOp _ _ _).trans he

end Draft

/-! ## Looking references up -/

/-- What an operation calls stays the same. -/
theorem Op.Becomes.callee? {old op : Op} (h : old.Becomes op) : op.callee? = old.callee? := by
  cases h <;> rfl

/-- A call has the entry that a draft has for it, seen from the document at a position. -/
def Op.Found (d : Draft) (document : Nat) : Op → Prop
  | callFunction name entry param _ _ =>
    d.lookUp document (fun sec => sec.functions.get? name) = some (entry, param)
  | useSkill key entry _ _ | overloadSkill key entry _ _ => d.skills.get? key = some entry
  | _ => True

namespace Draft

theorem callee?_setFunction (target : Nat) (param : String) (op : Op) :
    (setFunction target param op).callee? = op.callee? := by
  cases op <;> rfl

theorem callee?_setSkill (target : Nat) (op : Op) : (setSkill target op).callee? = op.callee? := by
  cases op <;> rfl

/-- What holds of the calls of a linked draft with references that are still open. -/
structure Calling (first linked : Draft) (refs : List OpenReference) (d : Draft) : Prop where
  becomes : first.Becomes d
  sections : d.sections = linked.sections
  skills : d.skills = linked.skills
  found : ∀ j op refers, d.op? j = some op → op.callee? = some refers →
    (∃ r ∈ refs, r.index = j) ∨ ∃ r ∈ linked.references, r.index = j ∧ op.Found linked r.document

/-- If the instruction of a reference is reworked to call what it called, with the entry that there
is for it, then nothing else is left open than what the other references are for. -/
theorem Calling.found_modifyOp {first linked d : Draft} {r : OpenReference}
    {rest : List OpenReference} {old : Op} (hd : Calling first linked (r :: rest) d)
    (hr : r ∈ linked.references) (hop : first.op? r.index = some old)
    (hcallee : ∀ refers, old.callee? = some refers → r.refers = refers) {f : Op → Op}
    (hf : ∀ before refers, (f before).callee? = some refers → before.callee? = some refers ∧
      (r.refers = refers → (f before).Found linked r.document))
    {j : Nat} {op : Op} {refers : Reference} (hj : (d.modifyOp r.index f).op? j = some op)
    (hrefers : op.callee? = some refers) : (∃ r' ∈ rest, r'.index = j) ∨
      ∃ r' ∈ linked.references, r'.index = j ∧ op.Found linked r'.document := by
  rw [op?_modifyOp] at hj
  split at hj
  · next hindex =>
    obtain ⟨before, hbefore, rfl⟩ := Option.map_eq_some_iff.1 hj
    obtain ⟨hcalled, hfound⟩ := hf before refers hrefers
    obtain ⟨old', hold', hbecomes⟩ := hd.becomes j before hbefore
    rw [← hindex, hop] at hold'
    cases hold'
    exact .inr ⟨r, hr, hindex, hfound (hcallee refers (hbecomes.callee?.symm.trans hcalled))⟩
  · next hne =>
    refine (hd.found j op refers hj hrefers).imp_left fun ⟨r', hr', hindex⟩ => ?_
    rcases List.mem_cons.1 hr' with rfl | hr'
    · exact absurd hindex hne
    · exact ⟨r', hr', hindex⟩

theorem settle_calling {first linked d d' : Draft} {r : OpenReference} {rest : List OpenReference}
    {old : Op} (hr : r ∈ linked.references) (hop : first.op? r.index = some old)
    (htakes : old.Takes r.refers) (hcallee : ∀ refers, old.callee? = some refers → r.refers = refers)
    (hd : Calling first linked (r :: rest) d) (h : d.settle r = .ok d') :
    Calling first linked rest d' := by
  have hreworked := settle_reworked h
  refine ⟨settle_becomes hd.becomes hop htakes h, hreworked.sections.trans hd.sections,
    hreworked.skills.trans hd.skills, fun j op refers hj hrefers => ?_⟩
  cases settling h with
  | label =>
    refine hd.found_modifyOp hr hop hcallee (fun _ _ hjump => ?_) hj hrefers
    cases hjump
  | @function name param target hfunction ht =>
    refine hd.found_modifyOp hr hop hcallee (fun before called hbefore => ?_) hj hrefers
    rw [callee?_setFunction] at hbefore
    refine ⟨hbefore, fun hsame => ?_⟩
    rw [hfunction] at hsame
    subst hsame
    cases before with
    | callFunction =>
      cases hbefore
      unfold lookUp at ht
      rw [hd.sections] at ht
      exact ht
    | useSkill | overloadSkill => cases hbefore
    | _ => trivial
  | @skill key target hskill ht =>
    refine hd.found_modifyOp hr hop hcallee (fun before called hbefore => ?_) hj hrefers
    rw [callee?_setSkill] at hbefore
    refine ⟨hbefore, fun hsame => ?_⟩
    rw [hskill] at hsame
    subst hsame
    cases before with
    | useSkill | overloadSkill =>
      cases hbefore
      rw [hd.skills] at ht
      exact ht
    | callFunction => cases hbefore
    | _ => trivial

theorem settleAll_calling {first linked : Draft} (refs : List OpenReference) {d d' : Draft}
    (hrefs : ∀ r ∈ refs, r ∈ linked.references ∧ ∃ old, first.op? r.index = some old ∧
      old.Takes r.refers ∧ ∀ refers, old.callee? = some refers → r.refers = refers)
    (hd : Calling first linked refs d) (h : refs.foldlM settle d = .ok d') :
    Calling first linked [] d' := by
  induction refs generalizing d with
  | nil =>
    cases h
    exact hd
  | cons r rest ih =>
    obtain ⟨d₁, h₁, h⟩ := bind_eq_ok h
    obtain ⟨⟨hr, old, hop, htakes, hcallee⟩, hrest⟩ := List.forall_mem_cons.1 hrefs
    exact ih hrest (settle_calling hr hop htakes hcallee hd h₁) h

end Draft

/-! ## Resolved programs -/

/-- The program is written of documents: their ranges follow one another, and its instructions are
those that were laid out of the documents, but for their targets. -/
structure Program.Written (docs : List SkillDocument) (p : Program) : Prop where
  documents : ∀ k, p.documents[k]? = docs[k]?.map (spanIn docs k)
  size : p.size = (layout docs).length
  code : ∀ (j : Nat) (i : Instruction), (layout docs)[j]? = some i →
    ∃ i', p.instructions[j]? = some i' ∧ i'.address = i.address ∧ i.op.Becomes i'.op

namespace Draft

/-- How a program is resolved: documents are taken up behind the main one, linked, and then their
references are looked up. -/
structure Resolution (main : SkillDocument) (library : SkillLibrary)
    (taken : List (String × SkillDocument)) (first linked last : Draft) : Prop where
  gathering : ∃ seen, Gathering main library seen [] taken first
  laid : first.Laid
  drafted : first.Drafted
  link : first.link = .ok linked
  settle : linked.references.foldlM Draft.settle linked = .ok last

theorem resolution_of_resolve {main : SkillDocument} {library : SkillLibrary} {p : Program}
    (h : resolve main library = .ok p) : ∃ taken first linked last,
      Resolution main library taken first linked last ∧ p = last.finish main := by
  obtain ⟨first, linked, last, hfirst, hlink, hsettle, rfl⟩ := resolve_eq_ok h
  obtain ⟨seen, taken, hgathering⟩ := gathered_of_ofDocuments hfirst
  exact ⟨taken, first, linked, last, ⟨⟨seen, hgathering⟩, (ofDocuments_laid hfirst).1,
    ofDocuments_drafted hfirst, hlink, hsettle⟩, rfl⟩

theorem Holds.exists_section {docs : List SkillDocument} {first : Draft} (h : first.Holds docs)
    {k : Nat} {doc : SkillDocument} (hk : docs[k]? = some doc) :
    ∃ sec, first.sections[k]? = some sec ∧ sec.span = spanIn docs k doc := by
  obtain ⟨hlt, -⟩ := List.getElem?_eq_some_iff.1 hk
  have hsec : first.sections[k]? = some _ := Array.getElem?_eq_getElem (h.count.symm ▸ hlt)
  obtain ⟨doc', hdoc', hspan, -⟩ := h.sections k _ hsec
  rw [hk] at hdoc'
  cases hdoc'
  exact ⟨_, hsec, hspan⟩

/-- The range of a document is the one between its bounds. -/
theorem Holds.bounds {docs : List SkillDocument} {first : Draft} (h : first.Holds docs)
    (hlaid : first.Laid) {k : Nat} {doc : SkillDocument} (hk : docs[k]? = some doc) :
    first.bound k = (spanIn docs k doc).start ∧
      first.bound (k + 1) = (spanIn docs k doc).stop := by
  obtain ⟨sec, hsec, hspan⟩ := h.exists_section hk
  obtain ⟨-, hstart, hstop⟩ := (LinkState.SameLayout.refl first).bounds hlaid hsec
  exact ⟨by rw [← hstart, hspan], by rw [← hstop, hspan]⟩

namespace Resolution

variable {main : SkillDocument} {library : SkillLibrary} {taken : List (String × SkillDocument)}
  {first linked last : Draft}

theorem holds (h : Resolution main library taken first linked last) :
    first.Holds (main :: taken.map (·.2)) := by
  obtain ⟨seen, hgathering⟩ := h.gathering
  exact hgathering.holds

theorem layout (h : Resolution main library taken first linked last) :
    LinkState.SameLayout first linked := (link_linkedTo h.laid h.link).layout

theorem sections (h : Resolution main library taken first linked last) :
    last.sections = linked.sections := settleAll_sections h.settle

/-- Every open reference belongs to an instruction that takes it. -/
theorem references (h : Resolution main library taken first linked last) :
    ∀ r ∈ linked.references, r ∈ linked.references ∧ ∃ old, first.op? r.index = some old ∧
      old.Takes r.refers ∧ ∀ refers, old.callee? = some refers → r.refers = refers := by
  intro r hr
  have hfirst : r ∈ first.references := h.layout.references ▸ hr
  obtain ⟨old, hold, htakes⟩ := h.drafted.references r hfirst
  obtain ⟨⟨op, hop, hcallee⟩, -⟩ := h.holds.owned r hfirst
  rw [hold] at hop
  cases hop
  exact ⟨hr, old, hold, htakes, hcallee⟩

theorem traced (h : Resolution main library taken first linked last) : Traced first last := by
  refine settleAll_traced linked.references (fun r hr => ?_)
    (link_trackedTo h.laid h.link).traced h.settle
  obtain ⟨-, old, hold, htakes, -⟩ := h.references r hr
  exact ⟨old, hold, htakes⟩

theorem calling (h : Resolution main library taken first linked last) :
    Calling first linked [] last := by
  have hbecomes := (link_trackedTo h.laid h.link).becomes
  refine settleAll_calling linked.references h.references ⟨hbecomes, rfl, rfl, ?_⟩ h.settle
  intro j op refers hop hcallee
  obtain ⟨old, hold, hold'⟩ := hbecomes j op hop
  obtain ⟨r, hr, hindex, -⟩ := h.holds.noted j old refers hold (hold'.callee?.symm.trans hcallee)
  exact .inl ⟨r, h.layout.references.symm ▸ hr, hindex⟩

/-- The ranges of a resolved program are those of the documents that were taken up. -/
theorem getElem?_documents (h : Resolution main library taken first linked last) (k : Nat) :
    (last.finish main).documents[k]? = (main :: taken.map (·.2))[k]?.map
      (spanIn (main :: taken.map (·.2)) k) := by
  have hholds := h.holds
  generalize main :: taken.map (·.2) = docs at hholds
  change (last.sections.toList.map (·.span))[k]? = _
  rw [h.sections, List.getElem?_map, Array.getElem?_toList]
  cases hk : docs[k]? with
  | none =>
    have hle : linked.sections.size ≤ k := by
      rw [h.layout.sections, hholds.count]
      exact List.getElem?_eq_none_iff.1 hk
    rw [Array.getElem?_eq_none hle]
    rfl
  | some doc =>
    obtain ⟨hlt, -⟩ := List.getElem?_eq_some_iff.1 hk
    have hsec : linked.sections[k]? = some _ :=
      Array.getElem?_eq_getElem (by rw [h.layout.sections, hholds.count]; exact hlt)
    obtain ⟨old, hold, hspan⟩ := h.layout.span k _ hsec
    obtain ⟨sec, hsec', hspan'⟩ := hholds.exists_section hk
    rw [hold] at hsec'
    cases hsec'
    rw [hsec, Option.map_some, hspan, hspan', Option.map_some]

theorem size (h : Resolution main library taken first linked last) :
    last.size = (Deskhand.layout (main :: taken.map (·.2))).length :=
  h.traced.size.trans h.holds.size

theorem written (h : Resolution main library taken first linked last) :
    (last.finish main).Written (main :: taken.map (·.2)) where
  documents := h.getElem?_documents
  size := h.size
  code j i hi := by
    obtain ⟨hj, -⟩ := List.getElem?_eq_some_iff.1 hi
    have hlast : last.instructions[j]? = some _ :=
      Array.getElem?_eq_getElem (show j < last.size by rw [h.size]; exact hj)
    refine ⟨_, hlast, ?_, ?_⟩
    · have hsame : last.addresses[j]? = first.addresses[j]? := by
        rw [addresses_of_settleAll h.settle, addresses_of_link h.link]
      unfold addresses at hsame
      rw [List.getElem?_map, List.getElem?_map, Array.getElem?_toList, hlast, h.holds.code,
        hi] at hsame
      exact Option.some.inj hsame
    · have hop : last.op? j = some _ := congrArg (Option.map Instruction.op) hlast
      obtain ⟨old, hold, hbecomes⟩ := h.traced.becomes j _ hop
      rw [op?_eq_toList, h.holds.code, hi] at hold
      cases hold
      exact hbecomes

end Resolution

end Draft

end Deskhand
