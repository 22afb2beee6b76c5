import Deskhand.Proofs.Callees
import Deskhand.Proofs.Snapshots
import Mathlib.Data.List.Perm.Basic

/-!
# The order of a document's entries

A document is the same whatever the order in which its entries stand. What it is to be the document of
some entries is said without their order (`SkillDocument.Denoted`): the steps are those of the step
entries, each once, in the order of their numbers. Reading an object gives a document exactly if it is
the one that the entries denote (`SkillDocument.ofValue_eq_ok_iff`), so permuted entries give the same
document or none at all (`SkillDocument.ofValue_perm`). There is none if two keys denote one number.
-/

namespace Deskhand

/-- The entry of a document that a step stands for. -/
def RawStep.entry (s : RawStep) : String × Value := (s.key, .object s.fields)

/-- The number and the kind of a step are those in its entry. -/
structure RawStep.Faithful (s : RawStep) : Prop where
  number : SkillDocument.stepNumber? s.key = some s.number
  kind : (Entries.get? "type" s.fields).bind Value.text? = some s.kind

namespace SkillDocument

/-- The entry is one of those that hold steps. -/
def holdsStep (entry : String × Value) : Bool := Text.startsWith entry.1 "step"

theorem not_holdsStep {key : String} {record : Value} (h : Text.startsWith key "step" = false) :
    holdsStep (key, record) = false := h

/-- A key with the number of a step is that of a step entry. -/
theorem holdsStep_of_stepNumber {entry : String × Value} {n : Nat}
    (h : stepNumber? entry.1 = some n) : holdsStep entry = true := by
  unfold stepNumber? Text.afterStart? at h
  cases hstart : Text.startsWith entry.1 "step" with
  | true => exact hstart
  | false =>
    rw [hstart] at h
    cases h

/-! ## Reading one entry after another -/

/-- A step is read from an entry exactly if it is faithful to it. -/
theorem readStep_eq_ok_iff {name key : String} {record : Value} {s : RawStep} :
    readStep name key record = .ok s ↔ s.entry = (key, record) ∧ s.Faithful := by
  unfold readStep
  dsimp only [bind, Except.bind]
  constructor
  · intro h
    cases hnumber : stepNumber? key with
    | none =>
      rw [hnumber] at h
      cases h
    | some number =>
      rw [hnumber] at h
      cases record with
      | object fields =>
        cases hkind : (Entries.get? "type" fields).bind Value.text? with
        | none =>
          simp only [hkind] at h
          cases h
        | some kind =>
          simp only [hkind] at h
          cases h
          exact ⟨rfl, hnumber, hkind⟩
      | _ => cases h
  · rintro ⟨hentry, hnumber, hkind⟩
    cases hentry
    simp only [hnumber, hkind]

/-- The header that entries give, if there is another one in case they have none. -/
def GivesHeader (entries : Entries Value) (otherwise header : SkillHeader) : Prop :=
  match entries.get? "header" with
  | none => header = otherwise
  | some record => ∃ r, SkillHeader.shape.read record = .ok r ∧ header = .ofEntries r

theorem givesHeader_of_get?_eq_none {entries : Entries Value} (h : entries.get? "header" = none)
    {otherwise header : SkillHeader} :
    GivesHeader entries otherwise header ↔ header = otherwise := by
  unfold GivesHeader
  rw [h]

theorem givesHeader_cons_of_ne {key : String} (hkey : key ≠ "header") (record : Value)
    (rest : Entries Value) {otherwise header : SkillHeader} :
    GivesHeader ((key, record) :: rest) otherwise header ↔ GivesHeader rest otherwise header := by
  unfold GivesHeader
  rw [Entries.get?, if_neg hkey]

/-- The header of distinct entries does not depend on their order. -/
theorem GivesHeader.perm {entries entries' : Entries Value} (hdistinct : entries.names.Nodup)
    (hperm : entries.Perm entries') {otherwise header : SkillHeader}
    (h : GivesHeader entries otherwise header) : GivesHeader entries' otherwise header := by
  have hget := Entries.get?_of_perm hdistinct hperm.symm "header"
  unfold GivesHeader at h ⊢
  rwa [hget]

/-- Entries are read exactly if they give a header and each step entry is that of a step. -/
theorem readEntries_eq_ok_iff {name : String} {entries : Entries Value}
    (hdistinct : entries.names.Nodup) {header header' : SkillHeader} {steps all : List RawStep} :
    readEntries name header steps entries = .ok (header', all) ↔
      GivesHeader entries header header' ∧ ∃ more, all = steps ++ more ∧
        more.map RawStep.entry = entries.filter holdsStep ∧ ∀ s ∈ more, s.Faithful := by
  induction entries generalizing header steps with
  | nil =>
    rw [readEntries, givesHeader_of_get?_eq_none rfl]
    constructor
    · intro h
      cases h
      exact ⟨rfl, [], by simp⟩
    · rintro ⟨rfl, more, rfl, hmore, -⟩
      rw [List.map_eq_nil_iff.1 hmore, List.append_nil]
  | cons e rest ih =>
    obtain ⟨key, record⟩ := e
    obtain ⟨hkey, hrest⟩ := List.nodup_cons.1 hdistinct
    rw [readEntries]
    split
    · -- the header stands nowhere else
      next heq =>
      subst heq
      have hnone : Entries.get? "header" rest = none := by
        rw [← Option.not_isSome_iff_eq_none]
        exact fun h => hkey (Entries.has_iff_mem_names.1 h)
      have hfilter : List.filter holdsStep (("header", record) :: rest) = rest.filter holdsStep :=
        List.filter_cons_of_neg (Bool.eq_false_iff.1 (not_holdsStep (by decide)))
      rw [hfilter]
      split
      · next r hread =>
        rw [ih hrest, givesHeader_of_get?_eq_none hnone]
        have hgives : GivesHeader (("header", record) :: rest) header header' ↔
            header' = .ofEntries r := by
          simp [GivesHeader, Entries.get?, hread]
        rw [hgives]
      · next fault hread =>
        constructor
        · intro h
          cases h
        · rintro ⟨⟨r, hr, -⟩, -⟩
          rw [hread] at hr
          cases hr
    · next hne =>
      rw [givesHeader_cons_of_ne hne]
      split
      · next hother =>
        have hfilter : List.filter holdsStep ((key, record) :: rest) = rest.filter holdsStep := by
          refine List.filter_cons_of_neg ?_
          rw [Bool.not_eq_true]
          rcases hother with rfl | hother
          · exact not_holdsStep (by decide)
          · exact not_holdsStep (by simpa using hother)
        rw [ih hrest, hfilter]
      · next hstep =>
        have hholds : holdsStep (key, record) = true := by
          simpa [holdsStep] using (not_or.1 hstep).2
        rw [List.filter_cons_of_pos hholds]
        constructor
        · intro h
          obtain ⟨s, hs, h⟩ := bind_eq_ok h
          obtain ⟨hentry, hfaithful⟩ := readStep_eq_ok_iff.1 hs
          obtain ⟨hheader, more, rfl, hmore, hall⟩ := (ih hrest).1 h
          refine ⟨hheader, s :: more, List.append_assoc steps [s] more, ?_, ?_⟩
          · rw [List.map_cons, hentry, hmore]
          · exact List.forall_mem_cons.2 ⟨hfaithful, hall⟩
        · rintro ⟨hheader, more, rfl, hmore, hall⟩
          obtain ⟨s, more, rfl, hentry, hmore⟩ := List.map_eq_cons_iff.1 hmore
          obtain ⟨hfaithful, hall⟩ := List.forall_mem_cons.1 hall
          rw [readStep_eq_ok_iff.2 ⟨hentry, hfaithful⟩]
          refine (ih hrest).2 ⟨hheader, more, ?_, hmore, hall⟩
          exact (List.append_assoc steps [s] more).symm

/-! ## What entries denote -/

/-- The document of entries: its header is theirs, and its steps are those of the step entries, none
lost and none doubled, in the order of their numbers. -/
structure Denoted (name : String) (entries : Entries Value) (doc : SkillDocument) : Prop where
  name : doc.name = name
  header : GivesHeader entries .empty doc.header
  entries : (doc.steps.map RawStep.entry).Perm (entries.filter holdsStep)
  faithful : ∀ s ∈ doc.steps, s.Faithful
  numbered : doc.Numbered

theorem Denoted.perm {name : String} {entries entries' : Entries Value} {doc : SkillDocument}
    (hdistinct : entries.names.Nodup) (hperm : entries.Perm entries')
    (h : Denoted name entries doc) : Denoted name entries' doc where
  name := h.name
  header := h.header.perm hdistinct hperm
  entries := h.entries.trans (hperm.filter holdsStep)
  faithful := h.faithful
  numbered := h.numbered

theorem duplicate?_eq_none {steps : List RawStep}
    (h : steps.Pairwise fun a b => a.number < b.number) : duplicate? steps = none := by
  induction steps with
  | nil => rfl
  | cons a rest ih =>
    obtain ⟨ha, hrest⟩ := List.pairwise_cons.1 h
    cases rest with
    | nil => rfl
    | cons b rest =>
      have hne : a.number ≠ b.number := Nat.ne_of_lt (ha b List.mem_cons_self)
      rw [duplicate?, if_neg hne]
      exact ih hrest

/-- Steps with growing numbers are told apart by their numbers. -/
theorem eq_of_number {steps : List RawStep} (h : steps.Pairwise fun a b => a.number < b.number)
    {a b : RawStep} (ha : a ∈ steps) (hb : b ∈ steps) (hab : a.number = b.number) : a = b := by
  induction steps with
  | nil => cases ha
  | cons c rest ih =>
    obtain ⟨hc, hrest⟩ := List.pairwise_cons.1 h
    rcases List.mem_cons.1 ha with hac | ha
    · rcases List.mem_cons.1 hb with hbc | hb
      · rw [hac, hbc]
      · rw [hac] at hab
        exact absurd hab (Nat.ne_of_lt (hc b hb))
    · rcases List.mem_cons.1 hb with hbc | hb
      · rw [hbc] at hab
        exact absurd hab.symm (Nat.ne_of_lt (hc a ha))
      · exact ih hrest ha hb

/-- Steps in another order are sorted to those with growing numbers. -/
theorem mergeSort_eq {steps sorted : List RawStep} (hperm : steps.Perm sorted)
    (h : sorted.Pairwise fun a b => a.number < b.number) :
    (steps.mergeSort fun a b => a.number ≤ b.number) = sorted := by
  have hsorted := (List.mergeSort_perm steps fun a b => a.number ≤ b.number).trans hperm
  have hle : (steps.mergeSort fun a b => a.number ≤ b.number).Pairwise
      fun a b => a.number ≤ b.number := by
    refine (List.pairwise_mergeSort ?_ ?_ steps).imp ?_
    · intro a b c hab hbc
      simp only [decide_eq_true_eq] at hab hbc ⊢
      exact Nat.le_trans hab hbc
    · intro a b
      simpa using Nat.le_total a.number b.number
    · intro a b hab
      simpa using hab
  refine List.Perm.eq_of_pairwise ?_ hle (h.imp Nat.le_of_lt) hsorted
  intro a b ha hb hab hba
  exact eq_of_number h (hsorted.mem_iff.1 ha) hb (Nat.le_antisymm hab hba)

/-- An object is read exactly if its entries denote a document, and then this one. -/
theorem ofValue_eq_ok_iff {name : String} {entries : Entries Value}
    (hdistinct : entries.names.Nodup) {doc : SkillDocument} :
    ofValue name (.object entries) = .ok doc ↔ Denoted name entries doc := by
  constructor
  · intro h
    have hnumbered := numbered_of_ofValue h
    unfold ofValue at h
    obtain ⟨⟨header, steps⟩, hread, h⟩ := bind_eq_ok h
    obtain ⟨hheader, more, hsteps, hmore, hfaithful⟩ := (readEntries_eq_ok_iff hdistinct).1 hread
    rw [List.nil_append] at hsteps
    dsimp only at h
    split at h
    · cases h
    · cases h
      have hsorted := List.mergeSort_perm steps fun a b => a.number ≤ b.number
      rw [← hsteps] at hmore hfaithful
      refine ⟨rfl, hheader, ?_, ?_, hnumbered⟩
      · rw [← hmore]
        exact hsorted.map RawStep.entry
      · intro s hs
        exact hfaithful s (hsorted.mem_iff.1 hs)
  · rintro ⟨rfl, hheader, hentries, hfaithful, hnumbered⟩
    -- the steps in the order in which their entries stand
    obtain ⟨more, hmore, hperm⟩ : ∃ more, entries.filter holdsStep = List.map RawStep.entry more ∧
        more.Perm doc.steps :=
      (congrFun (congrFun (List.eq_map_comp_perm RawStep.entry) _) _).mpr hentries.symm
    have hread : readEntries doc.name .empty [] entries = .ok (doc.header, more) :=
      (readEntries_eq_ok_iff hdistinct).2 ⟨hheader, more, rfl, hmore.symm,
        fun s hs => hfaithful s (hperm.mem_iff.1 hs)⟩
    have hsorted := mergeSort_eq hperm hnumbered
    unfold ofValue
    dsimp only
    rw [hread]
    dsimp only [bind, Except.bind]
    rw [hsorted, duplicate?_eq_none hnumbered]

/-- Two steps of a document have two numbers, so entries whose keys denote one number denote no
document. -/
theorem not_denoted {name : String} {entries : Entries Value} {a b : String × Value} {n : Nat}
    (ha : a ∈ entries) (hb : b ∈ entries) (hab : a ≠ b) (hna : stepNumber? a.1 = some n)
    (hnb : stepNumber? b.1 = some n) (doc : SkillDocument) : ¬Denoted name entries doc := by
  intro h
  have hstep : ∀ e ∈ entries, stepNumber? e.1 = some n →
      ∃ s ∈ doc.steps, s.entry = e ∧ s.number = n := by
    intro e he hn
    have hmem : e ∈ doc.steps.map RawStep.entry :=
      h.entries.mem_iff.2 (List.mem_filter.2 ⟨he, holdsStep_of_stepNumber hn⟩)
    obtain ⟨s, hs, rfl⟩ := List.mem_map.1 hmem
    have hnumber : some s.number = some n := (h.faithful s hs).number.symm.trans hn
    exact ⟨s, hs, rfl, Option.some.inj hnumber⟩
  obtain ⟨s, hs, rfl, hsn⟩ := hstep a ha hna
  obtain ⟨t, ht, rfl, htn⟩ := hstep b hb hnb
  have hst : s = t := eq_of_number h.numbered hs ht (hsn.trans htn.symm)
  exact hab (congrArg RawStep.entry hst)

/-- The order of the entries does not matter. Whatever document an object gives, the object with its
entries in another order gives the same one; its steps are those of the step entries, none lost and
none doubled, with growing numbers. If two keys denote one number, however they are spelled, neither
object gives a document. -/
theorem ofValue_perm (name : String) {entries entries' : Entries Value}
    (hdistinct : entries.names.Nodup) (hperm : entries.Perm entries') :
    (∀ doc, ofValue name (.object entries) = .ok doc ↔ ofValue name (.object entries') = .ok doc) ∧
    (∀ doc, ofValue name (.object entries) = .ok doc →
      (doc.steps.map RawStep.entry).Perm (entries.filter holdsStep) ∧
        (∀ s ∈ doc.steps, s.Faithful) ∧ doc.steps.Pairwise fun a b => a.number < b.number) ∧
    ∀ a ∈ entries, ∀ b ∈ entries, a ≠ b → ∀ n, stepNumber? a.1 = some n →
      stepNumber? b.1 = some n → (∃ fault, ofValue name (.object entries) = .error fault) ∧
        ∃ fault, ofValue name (.object entries') = .error fault := by
  have hdistinct' : entries'.names.Nodup := (hperm.map Prod.fst).nodup_iff.1 hdistinct
  have hiff : ∀ doc, ofValue name (.object entries) = .ok doc ↔
      ofValue name (.object entries') = .ok doc := by
    intro doc
    rw [ofValue_eq_ok_iff hdistinct, ofValue_eq_ok_iff hdistinct']
    exact ⟨.perm hdistinct hperm, .perm hdistinct' hperm.symm⟩
  refine ⟨hiff, ?_, ?_⟩
  · intro doc h
    have hdenoted := (ofValue_eq_ok_iff hdistinct).1 h
    exact ⟨hdenoted.entries, hdenoted.faithful, hdenoted.numbered⟩
  · intro a ha b hb hab n hna hnb
    have hnone : ∀ doc, ofValue name (.object entries) ≠ .ok doc := by
      intro doc h
      exact not_denoted ha hb hab hna hnb doc ((ofValue_eq_ok_iff hdistinct).1 h)
    have hfails : ∀ r : Except SkillFault SkillDocument, (∀ doc, r ≠ .ok doc) →
        ∃ fault, r = .error fault := by
      intro r hr
      cases r with
      | error fault => exact ⟨fault, rfl⟩
      | ok doc => exact absurd rfl (hr doc)
    exact ⟨hfails _ hnone, hfails _ fun doc h => hnone doc ((hiff doc).2 h)⟩

/-- A document whose steps stand in another order than they run. -/
def shuffled : Entries Value :=
  [("step 10", .object [("type", .text "Halt")]), ("header", .object [("name", .text "demo")]),
    ("step5", .object [("type", .text "Wait")])]

/-- A document with two spellings of one number. -/
def doubled : Entries Value :=
  [("step 5", .object [("type", .text "Halt")]), ("step05", .object [("type", .text "Wait")])]

theorem ofValue_perm_shuffled :
    (∃ doc, ofValue "main" (.object shuffled) = .ok doc ∧
      ofValue "main" (.object shuffled.reverse) = .ok doc ∧ doc.steps.map (·.number) = [5, 10] ∧
      (doc.steps.map RawStep.entry).Perm (shuffled.filter holdsStep)) ∧
    (∃ fault, ofValue "main" (.object doubled) = .error fault) ∧
      ∃ fault, ofValue "main" (.object doubled.reverse) = .error fault := by
  have hnodup : shuffled.names.Nodup := by decide
  have hnodup' : doubled.names.Nodup := by decide
  have hshuffled := ofValue_perm "main" hnodup (List.reverse_perm shuffled).symm
  have hdoubled := ofValue_perm "main" hnodup' (List.reverse_perm doubled).symm
  constructor
  · let doc : SkillDocument := ⟨"main", ⟨"demo", "", "", "", "", ""⟩,
      [⟨"step5", 5, "Wait", [("type", .text "Wait")]⟩,
        ⟨"step 10", 10, "Halt", [("type", .text "Halt")]⟩]⟩
    have hdoc : ofValue "main" (.object shuffled) = .ok doc := by
      refine (ofValue_eq_ok_iff (by decide)).2 ⟨rfl, ⟨_, rfl, rfl⟩, .swap _ _ _, ?_, by decide⟩
      intro s hs
      rcases List.mem_cons.1 hs with rfl | hs
      · exact ⟨rfl, rfl⟩
      · rw [List.mem_singleton.1 hs]
        exact ⟨rfl, rfl⟩
    exact ⟨doc, hdoc, (hshuffled.1 doc).1 hdoc, rfl, (hshuffled.2.1 doc hdoc).1⟩
  · exact hdoubled.2.2 _ List.mem_cons_self _ (List.mem_cons_of_mem _ List.mem_cons_self)
      (fun h => absurd (congrArg Prod.fst h) (by decide)) 5 rfl rfl

end SkillDocument

end Deskhand
