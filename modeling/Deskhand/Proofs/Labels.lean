import Deskhand.Proofs.Coverage
import Deskhand.Proofs.EntryOrder
import Deskhand.Proofs.Paths
import Deskhand.Proofs.TargetNames
import Deskhand.Proofs.Writing

/-!
# Labels lead to what they name

A jump of a resolved program leads where its label did when all documents were linked
(`Draft.Resolution.goto_of_step`). A label that reads as a number leads to the first instruction of
the step of that number in its own document, and the number of a step, its key and the text of its
address read as one (`StepLabel.number`). Any other label that is a tag of its own document leads to
the last tag of that name there (`gotos_reach_labels`). The number goes first, so a tag whose name
reads as one is out of reach: `not_tags_reached`.
-/

namespace Deskhand

/-! ## What labels read as -/

namespace Draft

theorem labelName_of_notMem {text : String} (h : '!' ∉ text.toList) :
    labelName text = Text.trim text := by
  have hmark : "!".toList = ['!'] := rfl
  unfold labelName Text.split Text.pieces
  rw [hmark, if_neg (List.cons_ne_nil _ _), Text.piecesFrom_of_notMem h]
  simp

/-- Only what stands behind an exclamation mark counts. -/
theorem labelName_of_mark {text : String} {before after : List Char}
    (htext : text.toList = before ++ '!' :: after) (hafter : '!' ∉ after) :
    labelName text = String.ofList (Text.trimChars after) := by
  have hmark : "!".toList = ['!'] := rfl
  unfold labelName Text.split Text.pieces
  rw [hmark, if_neg (List.cons_ne_nil _ _), htext, Text.piecesFrom_append,
    Text.piecesFrom_of_notMem hafter]
  simp [Text.trim]

end Draft

/-- Nothing is trimmed off a text that ends with the digits of a number. -/
theorem Text.trimChars_digits (front : List Char) (hfront : ∀ c ∈ front.head?, isBlank c = false)
    (n : Nat) : trimChars (front ++ (toString n).toList) = front ++ (toString n).toList := by
  obtain ⟨d, ds, hcons, hdigits, -⟩ := Expr.exists_digits n
  have hblank : ∀ c ∈ d :: ds, isBlank c = false := fun c hc => by
    have hrange := Expr.isDigit_iff.1 (hdigits c hc)
    exact Expr.not_isBlank_of_ascii (by omega) (by omega)
  rw [hcons]
  refine trimChars_of_ends (fun c hc => ?_) fun c hc => ?_
  · cases front with
    | nil => exact hblank c (List.mem_of_mem_head? hc)
    | cons f front => exact hfront c hc
  · rw [List.getLast?_append_cons] at hc
    exact hblank c (List.mem_of_mem_getLast? hc)

theorem Text.trim_toString (n : Nat) : trim (toString n) = toString n := by
  have hdigits := trimChars_digits [] nofun n
  rw [List.nil_append] at hdigits
  rw [trim, hdigits, String.ofList_toList]

theorem readNat64?_toString {n : Nat} (h : n < Word.count64) :
    readNat64? (toString n) = some n := by
  obtain ⟨d, ds, hcons, hdigits, hvalue⟩ := Expr.exists_digits n
  have hplus : d ≠ '+' := by
    rintro rfl
    cases hdigits _ List.mem_cons_self
  have hread : readDigits? (d :: ds) = some n := by
    rw [← hvalue]
    exact if_pos ⟨List.cons_ne_nil _ _, List.all_eq_true.2 hdigits⟩
  unfold readNat64?
  rw [hcons]
  split
  · next hd =>
    cases hd
    exact absurd rfl hplus
  · dsimp only
    rw [hread]
    exact if_pos h

theorem SkillDocument.stepNumber?_key {n : Nat} (h : n < Word.count64) :
    stepNumber? ("step " ++ toString n) = some n := by
  have hkey : ("step " ++ toString n).toList = "step".toList ++ ' ' :: (toString n).toList := by
    rw [String.toList_append]
    rfl
  have hrest : Text.afterStart? "step" ("step " ++ toString n) =
      some (String.ofList (' ' :: (toString n).toList)) := by
    unfold Text.afterStart? Text.startsWith
    rw [hkey, if_pos (List.isPrefixOf_iff_prefix.2 (List.prefix_append _ _))]
    rfl
  have htrim : Text.trim (String.ofList (' ' :: (toString n).toList)) = toString n := by
    rw [Text.trim, String.toList_ofList]
    exact Text.trim_toString n
  unfold stepNumber?
  rw [hrest, Option.bind_some, htrim, readNat64?_toString h]

/-- Digits are not the key of a step. -/
theorem SkillDocument.stepNumber?_digits (n : Nat) : stepNumber? (toString n) = none := by
  obtain ⟨d, ds, hcons, hdigits, -⟩ := Expr.exists_digits n
  have hstart : ¬Text.startsWith (toString n) "step" = true := by
    unfold Text.startsWith
    rw [hcons, List.isPrefixOf_iff_prefix]
    rintro ⟨rest, hrest⟩
    obtain ⟨rfl, -⟩ := List.cons.inj hrest
    cases hdigits 's' List.mem_cons_self
  unfold stepNumber? Text.afterStart?
  rw [if_neg hstart]
  rfl

/-- The texts by which a step can be named: its number, its key and its address. -/
def StepLabel (name : String) (n : Nat) (text : String) : Prop :=
  text = toString n ∨ text = "step " ++ toString n ∨ text = Address.render ⟨name, n, false⟩

/-- However a step is named, its number is read. -/
theorem StepLabel.number {name text : String} {n : Nat} (hn : n < Word.count64)
    (h : StepLabel name n text) : Draft.labelNumber? (Draft.labelName text) = some n := by
  have hdigits : '!' ∉ (toString n).toList := by
    obtain ⟨d, ds, hcons, hdigits, -⟩ := Expr.exists_digits n
    rw [hcons]
    intro hmem
    cases hdigits _ hmem
  have hkey : ("step " ++ toString n).toList = "step ".toList ++ (toString n).toList :=
    String.toList_append
  have hmark : '!' ∉ ("step " ++ toString n).toList := by
    rw [hkey, List.mem_append, not_or]
    exact ⟨by decide, hdigits⟩
  have htrim : Text.trimChars ("step " ++ toString n).toList = ("step " ++ toString n).toList := by
    rw [hkey]
    refine Text.trimChars_digits _ (fun c hc => ?_) n
    obtain rfl : 's' = c := Option.some.inj hc
    rfl
  have hread : Draft.labelNumber? ("step " ++ toString n) = some n := by
    unfold Draft.labelNumber?
    rw [SkillDocument.stepNumber?_key hn, Option.some_or]
  rcases h with rfl | rfl | rfl
  · rw [Draft.labelName_of_notMem hdigits, Text.trim_toString, Draft.labelNumber?,
      SkillDocument.stepNumber?_digits, readNat64?_toString hn, Option.none_or]
  · rw [Draft.labelName_of_notMem hmark, Text.trim, htrim, String.ofList_toList, hread]
  · have hrender : (Address.render ⟨name, n, false⟩).toList =
        name.toList ++ '!' :: ("step " ++ toString n).toList := by
      unfold Address.render
      simp [String.toList_append]
    rw [Draft.labelName_of_mark hrender hmark, htrim, String.ofList_toList, hread]

/-- The number in the key of a step is one of 64 bits. -/
theorem RawStep.Faithful.number_lt {s : RawStep} (h : s.Faithful) : s.number < Word.count64 := by
  obtain ⟨rest, -, hread⟩ := Option.bind_eq_some_iff.1 h.number
  unfold readNat64? at hread
  dsimp only at hread
  split at hread
  · split at hread
    · next hlt =>
      cases hread
      exact hlt
    · cases hread
  · cases hread

/-! ## Looking labels up -/

/-- A step that goes to a label. -/
def RawStep.GoesTo (text : String) (s : RawStep) : Prop :=
  s.kind = "Goto" ∧ ∃ r, s.read [.required "goto" .loose] = .ok r ∧ r.text "goto" = text

theorem RawStep.GoesTo.code {text : String} {s : RawStep} (h : s.GoesTo text) (document : Nat) :
    s.code document = .ok (.referring (.goto Program.sentinel none) (.label text)) := by
  obtain ⟨hkind, r, hread, rfl⟩ := h
  unfold RawStep.code
  rw [hkind]
  change (s.read _ >>= fun r => _) = _
  rw [hread]
  rfl

namespace Draft

theorem labelTarget?_of_sections {d d' : Draft} (h : d'.sections = d.sections) (document : Nat)
    (text : String) : d'.labelTarget? document text = d.labelTarget? document text := by
  unfold labelTarget? lookUp
  rw [h]

theorem op?_setOp_self {d : Draft} {j : Nat} (h : j < d.size) (op : Op) :
    (d.setOp j op).op? j = some op := by
  obtain ⟨old, hold⟩ : ∃ old, d.op? j = some old :=
    Option.ne_none_iff_exists'.1 fun hnone => Nat.not_le.2 h (op?_eq_none.1 hnone)
  unfold setOp
  rw [op?_modifyOp, if_pos rfl, hold]
  rfl

/-- Looking references up leads the only jump of an instruction where its label leads. -/
theorem settleAll_label (refs : List OpenReference) {d d' : Draft} {r : OpenReference}
    {text : String} (hr : r.refers = .label text) (hsole : ∀ r' ∈ refs, r'.index = r.index → r' = r)
    (hsize : r.index < d.size)
    (hfrom : r ∈ refs ∨ ∃ target, d.labelTarget? r.document text = some target ∧
      d.op? r.index = some (.goto target none))
    (h : refs.foldlM settle d = .ok d') : ∃ target,
      d.labelTarget? r.document text = some target ∧ d'.op? r.index = some (.goto target none) := by
  induction refs generalizing d with
  | nil =>
    cases h
    exact hfrom.resolve_left List.not_mem_nil
  | cons first rest ih =>
    obtain ⟨d₁, h₁, h⟩ := bind_eq_ok h
    obtain ⟨hfirst, hrest⟩ := List.forall_mem_cons.1 hsole
    have hreworked := settle_reworked h₁
    have hlabel := labelTarget?_of_sections hreworked.sections r.document text
    rw [← hlabel]
    refine ih hrest (hreworked.size.symm ▸ hsize) ?_ h
    rw [hlabel]
    by_cases hindex : first.index = r.index
    · obtain rfl := hfirst hindex
      cases settling h₁ with
      | label htext htarget =>
        rw [hr] at htext
        cases htext
        exact .inr ⟨_, htarget, op?_setOp_self hsize _⟩
      | function hname => exact nomatch hr.symm.trans hname
      | skill hkey => exact nomatch hr.symm.trans hkey
    · refine hfrom.imp (fun hmem => ?_) fun ⟨target, htarget, hop⟩ => ⟨target, htarget, ?_⟩
      · exact (List.mem_cons.1 hmem).resolve_left fun heq => hindex (heq ▸ rfl)
      · cases settling h₁ <;> exact (op?_modifyOp _ _ _ _).trans ((if_neg hindex).trans hop)

end Draft

/-! ## Where steps stand -/

/-- The index at which the instructions of a step begin, if these steps stand before it. -/
def entryBehind (docs : List SkillDocument) (k : Nat) (doc : SkillDocument) (before : List RawStep) :
    Nat :=
  (spanIn docs k doc).start + (before.flatMap (·.instructions doc.name k)).length

/-- In the range of a document, an index is that of the first instruction of a step. -/
structure Program.BeginsStep (document : Nat) (span : DocumentSpan) (s : RawStep) (j : Nat)
    (p : Program) : Prop where
  inside : span.start ≤ j ∧ j < span.stop
  first : ∀ i, span.start ≤ i → i < j → ∀ instruction, p.instructions[i]? = some instruction →
    instruction.address.step ≠ s.number
  /-- It stands for the step, or sets the counter of a loop to zero ahead of it. -/
  code : ∃ c op, s.code document = .ok c ∧
    p.instructions[j]? = some ⟨⟨span.name, s.number, c.setup.isSome⟩, op⟩ ∧
    (c.setup.getD c.op).Becomes op

/-- A counted loop begins with setting its counter to zero. -/
theorem Program.BeginsStep.counted {document : Nat} {span : DocumentSpan} {s : RawStep} {j : Nat}
    {p : Program} (h : p.BeginsStep document span s j) {c : StepCode} (hc : s.code document = .ok c)
    {guard count counter : String} {stop : Nat} (hloop : c.op = .loop guard count counter stop)
    (hguard : Text.isBlankText guard = true) :
    p.instructions[j]? = some ⟨⟨span.name, s.number, true⟩, RawStep.resetCounter counter⟩ := by
  obtain ⟨c', op, hc', hj, hbecomes⟩ := h.code
  rw [hc] at hc'
  cases hc'
  rw [setup_of_code hc hloop hguard] at hj hbecomes
  have hstays : (RawStep.resetCounter counter).Stays := trivial
  rw [hj, hstays.eq hbecomes]
  rfl

section Places

variable {docs : List SkillDocument} {k : Nat} {doc : SkillDocument} {before after : List RawStep}
  {s : RawStep}

/-- The instructions of a step stand between those of the steps before it and the rest. -/
theorem SkillDocument.instructions_of_steps (hsteps : doc.steps = before ++ s :: after) :
    ∃ rest, doc.instructions k = before.flatMap (·.instructions doc.name k) ++
      (s.instructions doc.name k ++ rest) := by
  refine ⟨after.flatMap (·.instructions doc.name k) ++
    [⟨⟨doc.name, doc.lastNumber, true⟩, doc.ending k⟩], ?_⟩
  unfold SkillDocument.instructions
  rw [hsteps, List.flatMap_append, List.flatMap_cons, List.append_assoc, List.append_assoc]

/-- The instructions of a step stand behind those of the steps before it. -/
theorem getElem?_layout_step (hk : docs[k]? = some doc) (hsteps : doc.steps = before ++ s :: after)
    {i : Nat} (hi : i < (s.instructions doc.name k).length) :
    entryBehind docs k doc before + i < (spanIn docs k doc).stop ∧
      (layout docs)[entryBehind docs k doc before + i]? = (s.instructions doc.name k)[i]? := by
  obtain ⟨rest, hcode⟩ := SkillDocument.instructions_of_steps (k := k) hsteps
  have hlength : (doc.instructions k).length = _ := congrArg List.length hcode
  rw [List.length_append, List.length_append] at hlength
  have hstop := spanIn_stop hk
  unfold entryBehind
  have hlt : (spanIn docs k doc).start + (before.flatMap (·.instructions doc.name k)).length + i <
      (spanIn docs k doc).stop := by omega
  refine ⟨hlt, ?_⟩
  rw [getElem?_layout hk (by omega) hlt, Nat.add_assoc, Nat.add_sub_cancel_left, hcode,
    List.getElem?_append_right (Nat.le_add_right _ _), Nat.add_sub_cancel_left,
    List.getElem?_append_left hi]

/-- Ahead of a step the instructions of the steps before it stand. -/
theorem step_of_lt_entry (hk : docs[k]? = some doc) (hsteps : doc.steps = before ++ s :: after)
    {i : Nat} (hle : (spanIn docs k doc).start ≤ i) (hlt : i < entryBehind docs k doc before)
    {instruction : Instruction} (hi : (layout docs)[i]? = some instruction) :
    ∃ u ∈ before, instruction.address.step = u.number := by
  obtain ⟨rest, hcode⟩ := SkillDocument.instructions_of_steps (k := k) hsteps
  have hlength : (doc.instructions k).length = _ := congrArg List.length hcode
  rw [List.length_append] at hlength
  have hstop := spanIn_stop hk
  unfold entryBehind at hlt
  rw [getElem?_layout hk hle (by omega), hcode, List.getElem?_append_left (by omega)] at hi
  obtain ⟨u, hu, hin⟩ := List.mem_flatMap.1 (List.mem_of_getElem? hi)
  exact ⟨u, hu, (SkillDocument.address_of_mem_instructions (List.mem_map_of_mem hin)).1⟩

theorem Program.Written.beginsStep {p : Program} (hp : p.Written docs) (hk : docs[k]? = some doc)
    (hsteps : doc.steps = before ++ s :: after) (hbefore : ∀ u ∈ before, u.number ≠ s.number)
    {c : StepCode} (hc : s.code k = .ok c) :
    p.BeginsStep k (spanIn docs k doc) s (entryBehind docs k doc before) where
  inside := by
    have hpos : 0 < (s.instructions doc.name k).length := by
      rw [RawStep.length_instructions_of_code doc.name hc]
      exact Nat.succ_pos _
    exact ⟨Nat.le_add_right _ _, (getElem?_layout_step hk hsteps hpos).1⟩
  first i hle hlt instruction hi := by
    obtain ⟨old, hold, haddress, -⟩ := hp.origin hi
    obtain ⟨u, hu, hstep⟩ := step_of_lt_entry hk hsteps hle hlt hold
    rw [haddress, hstep]
    exact hbefore u hu
  code := by
    have hhead : (s.instructions doc.name k)[0]? =
        some ⟨⟨doc.name, s.number, c.setup.isSome⟩, c.setup.getD c.op⟩ := by
      rw [RawStep.instructions_of_code doc.name hc]
      cases c.setup <;> rfl
    obtain ⟨hlt, -⟩ := List.getElem?_eq_some_iff.1 hhead
    have hold := (getElem?_layout_step hk hsteps hlt).2.trans hhead
    obtain ⟨⟨address, op⟩, hi, rfl, hbecomes⟩ := hp.code _ _ hold
    exact ⟨c, op, hc, hi, hbecomes⟩

/-- The references of a step are among those of its document. -/
theorem SkillDocument.mem_openReferences (hsteps : doc.steps = before ++ s :: after) {start : Nat}
    {r : OpenReference} (hr : r ∈ s.openReferences k
      (start + (before.flatMap (·.instructions doc.name k)).length)) :
    r ∈ doc.openReferences k start := by
  unfold openReferences
  rw [hsteps, placed_append, placed, List.flatMap_append, List.flatMap_cons]
  exact List.mem_append_right _ (List.mem_append_left _ hr)

end Places

/-! ## Where jumps lead -/

namespace Draft.Resolution

variable {main : SkillDocument} {library : SkillLibrary} {taken : List (String × SkillDocument)}
  {first linked last : Draft} {k : Nat} {doc : SkillDocument} {before after : List RawStep}
  {s : RawStep}

/-- No two references belong to one instruction. -/
theorem eq_of_index (h : Resolution main library taken first linked last) {r r' : OpenReference}
    (hr : r ∈ linked.references) (hr' : r' ∈ linked.references) (hindex : r.index = r'.index) :
    r = r' := by
  rw [h.layout.references] at hr hr'
  have hdistinct : (first.references.map (·.index)).Nodup :=
    List.pairwise_map.2 (h.holds.indexed.ordered.imp Nat.ne_of_lt)
  exact List.inj_on_of_nodup_map hdistinct hr hr' hindex

/-- A jump leads where its label does when all documents are linked. -/
theorem goto_of_step (h : Resolution main library taken first linked last)
    (hk : (main :: taken.map (·.2))[k]? = some doc) (hsteps : doc.steps = before ++ s :: after)
    {text : String} (hs : s.GoesTo text) : ∃ target, linked.labelTarget? k text = some target ∧
      last.op? (entryBehind (main :: taken.map (·.2)) k doc before) = some (.goto target none) := by
  generalize hr : OpenReference.mk (entryBehind (main :: taken.map (·.2)) k doc before) k
    (.label text) = r
  have hmem : r ∈ first.references := by
    refine h.holds.indexed.referring k doc hk _ (SkillDocument.mem_openReferences hsteps ?_)
    rw [RawStep.openReferences_of_code (hs.code k), ← hr]
    exact List.mem_singleton.2 rfl
  have hlinked : r ∈ linked.references := h.layout.references ▸ hmem
  have hsize : r.index < linked.size := by
    rw [h.layout.size]
    exact h.holds.index_lt hmem
  have hrefers : r.refers = .label text := hr ▸ rfl
  have hlabel := settleAll_label linked.references hrefers
    (fun r' hr' hindex => h.eq_of_index hr' hlinked hindex) hsize (.inl hlinked) h.settle
  rw [← hr] at hlabel
  exact hlabel

/-- A document of a linked draft knows where its steps begin and where its tags stand. -/
theorem exists_labels (h : Resolution main library taken first linked last)
    (hk : (main :: taken.map (·.2))[k]? = some doc) : ∃ sec, linked.sections[k]? = some sec ∧
      sec.steps = doc.stepTable k (spanIn (main :: taken.map (·.2)) k doc).start ∧
      ∀ name, sec.tags.get? name = lastTag? name (Deskhand.layout (main :: taken.map (·.2)))
        (spanIn (main :: taken.map (·.2)) k doc) := by
  obtain ⟨old, hold, hspan⟩ := h.holds.exists_section hk
  obtain ⟨hlt, -⟩ := Array.getElem?_eq_some_iff.1 hold
  obtain ⟨sec, hsec⟩ : ∃ sec, linked.sections[k]? = some sec :=
    ⟨_, Array.getElem?_eq_getElem (h.layout.sections.symm ▸ hlt)⟩
  obtain ⟨⟨old', hold', hsteps⟩, htags⟩ := h.surveyed.labels k sec hsec
  rw [hold] at hold'
  cases hold'
  obtain ⟨hstart, hstop⟩ := h.holds.bounds h.laid hk
  refine ⟨sec, hsec, ?_, fun name => ?_⟩
  · rw [hsteps, (h.holds.indexed.labels k old doc hold hk).2, hspan]
  · rw [htags, ahead_of_ge (h.laid.bound_le hlt), hstart, hstop, h.holds.code]
    rfl

/-- A number leads to the first step that has it. -/
theorem step_of_label (h : Resolution main library taken first linked last)
    (hk : (main :: taken.map (·.2))[k]? = some doc) {text : String} {target n : Nat}
    (htarget : linked.labelTarget? k text = some target)
    (hnumber : labelNumber? (labelName text) = some n) : ∃ before t after,
      doc.steps = before ++ t :: after ∧ t.number = n ∧ (∀ u ∈ before, u.number ≠ n) ∧
      target = entryBehind (main :: taken.map (·.2)) k doc before := by
  obtain ⟨sec, hsec, hsteps, -⟩ := h.exists_labels hk
  unfold labelTarget? at htarget
  dsimp only at htarget
  rw [hnumber] at htarget
  dsimp only at htarget
  rw [hsec, Option.bind_some, hsteps, SkillDocument.stepTable, List.find?_map] at htarget
  obtain ⟨entry, hentry, rfl⟩ := Option.map_eq_some_iff.1 htarget
  obtain ⟨e, he, rfl⟩ := Option.map_eq_some_iff.1 hentry
  obtain ⟨before, after, heq, ht, hbefore, hindex⟩ :=
    eq_append_of_find?_placed (p := fun s => s.number = n) he
  exact ⟨before, e.1, after, heq, of_decide_eq_true ht,
    fun u hu heq => hbefore u hu (decide_eq_true heq), hindex⟩

/-- A name leads to the last tag of that name in its own document, if there is one. -/
theorem tag_of_label (h : Resolution main library taken first linked last)
    (hk : (main :: taken.map (·.2))[k]? = some doc) {text : String} {target j : Nat}
    (htarget : linked.labelTarget? k text = some target)
    (hnumber : labelNumber? (labelName text) = none)
    (htag : lastTag? (labelName text) (Deskhand.layout (main :: taken.map (·.2)))
      (spanIn (main :: taken.map (·.2)) k doc) = some j) : target = j := by
  obtain ⟨sec, hsec, -, htags⟩ := h.exists_labels hk
  unfold labelTarget? lookUp at htarget
  dsimp only at htarget
  rw [hnumber] at htarget
  dsimp only at htarget
  rw [hsec, Option.bind_some, htags, htag, Option.some_or] at htarget
  exact (Option.some.inj htarget).symm

end Draft.Resolution

/-! ## Tags -/

/-- At an index of the code the tag of a name stands. -/
def TagAt (code : List Instruction) (name : String) (j : Nat) : Prop :=
  code[j]?.map (·.op) = some (.stub (.tag name))

theorem Op.tagName?_eq_some {op : Op} {name : String} :
    op.tagName? = some name ↔ op = .stub (.tag name) := by
  constructor
  · intro h
    cases op with
    | stub kind =>
      cases kind with
      | tag =>
        cases h
        rfl
      | _ => cases h
    | _ => cases h
  · rintro rfl
    rfl

theorem tagAt?_eq_some {name : String} {code : List Instruction} {i j : Nat} :
    tagAt? name code i = some j ↔ TagAt code name i ∧ i = j := by
  unfold tagAt? TagAt
  rw [Option.ite_none_right_eq_some, Option.some.injEq, Option.bind_eq_some_iff,
    Option.map_eq_some_iff]
  simp only [Op.tagName?_eq_some]

theorem tagAt?_eq_none {name : String} {code : List Instruction} {j : Nat} :
    tagAt? name code j = none ↔ ¬TagAt code name j := by
  rw [Option.eq_none_iff_forall_ne_some]
  exact ⟨fun h htag => h j (tagAt?_eq_some.2 ⟨htag, rfl⟩), fun h i hi => h (tagAt?_eq_some.1 hi).1⟩

/-- The last tag of a name stands in the range, and none of that name stands behind it. -/
theorem lastTag?_eq_some {name : String} {code : List Instruction} {span : DocumentSpan} {j : Nat}
    (h : lastTag? name code span = some j) : (span.start ≤ j ∧ j < span.stop) ∧
      TagAt code name j ∧ ∀ i, j < i → i < span.stop → ¬TagAt code name i := by
  obtain ⟨behind, a, ahead, hlist, hfound, hnone⟩ := List.findSome?_eq_some_iff.1 h
  rw [List.reverse_eq_iff, List.reverse_append, List.reverse_cons] at hlist
  obtain ⟨htag, rfl⟩ := tagAt?_eq_some.1 hfound
  have hmem : a ∈ List.range' span.start (span.stop - span.start) := by
    rw [hlist]
    simp
  obtain ⟨hle, hlt⟩ := List.mem_range'_1.1 hmem
  refine ⟨⟨hle, by omega⟩, htag, fun i hai hi htagi => ?_⟩
  have hmemi : i ∈ List.range' span.start (span.stop - span.start) :=
    List.mem_range'_1.2 ⟨by omega, by omega⟩
  have hordered : (List.range' span.start (span.stop - span.start)).Pairwise (· < ·) :=
    List.pairwise_lt_range'
  rw [hlist] at hmemi hordered
  -- what is larger stands behind
  have hbehind : i ∈ behind := by
    simp only [List.mem_append, List.mem_reverse, List.mem_singleton] at hmemi
    rcases hmemi with (hahead | rfl) | hbehind
    · have hij := (List.pairwise_append.1 (List.pairwise_append.1 hordered).1).2.2 i
        (List.mem_reverse.2 hahead) a List.mem_cons_self
      omega
    · omega
    · exact hbehind
  exact tagAt?_eq_none.1 (hnone i hbehind) htagi

theorem exists_lastTag? {name : String} {code : List Instruction} {span : DocumentSpan} {i : Nat}
    (hle : span.start ≤ i) (hlt : i < span.stop) (htag : TagAt code name i) :
    ∃ j, lastTag? name code span = some j := by
  refine Option.ne_none_iff_exists'.1 fun hnone => ?_
  have hi := List.findSome?_eq_none_iff.1 hnone i
    (List.mem_reverse.2 (List.mem_range'_1.2 ⟨hle, by omega⟩))
  exact tagAt?_eq_none.1 hi htag

/-- Tags stay where they were laid out, and there are no others. -/
theorem Program.Written.op?_tag {docs : List SkillDocument} {p : Program} (hp : p.Written docs)
    {name : String} {j : Nat} :
    p.op? j = some (.stub (.tag name)) ↔ TagAt (layout docs) name j := by
  unfold Program.op? TagAt
  constructor
  · intro h
    obtain ⟨i, hi, hop⟩ := Option.map_eq_some_iff.1 h
    obtain ⟨old, hold, -, hbecomes⟩ := hp.origin hi
    rw [hop] at hbecomes
    rw [hold, Option.map_some, hbecomes.of_stub]
  · intro h
    obtain ⟨old, hold, hop⟩ := Option.map_eq_some_iff.1 h
    obtain ⟨i, hi, -, hbecomes⟩ := hp.code j old hold
    rw [hop] at hbecomes
    have hstays : (Op.stub (.tag name)).Stays := rfl
    rw [hi, Option.map_some, hstays.eq hbecomes]

/-- In a range, an index is that of the last tag of a name. -/
structure Program.LastTag (span : DocumentSpan) (name : String) (j : Nat) (p : Program) : Prop where
  inside : span.start ≤ j ∧ j < span.stop
  tag : p.op? j = some (.stub (.tag name))
  last : ∀ i, j < i → i < span.stop → p.op? i ≠ some (.stub (.tag name))

/-- The name of a tag that is a label as it is: none of it is cut off, and it reads as no number. -/
structure PlainTag (name : String) : Prop where
  unmarked : '!' ∉ name.toList
  trimmed : Text.trim name = name
  numberless : Draft.labelNumber? name = none

theorem PlainTag.labelName {name : String} (h : PlainTag name) : Draft.labelName name = name := by
  rw [Draft.labelName_of_notMem h.unmarked, h.trimmed]

/-! ## Resolved programs -/

/-- From the document at a position, a label leads to what it names: a number, however it is written,
to the step that has it, and a plain name to the last tag of that name if the document has one. All
numbers that are read have 64 bits (`RawStep.Faithful.number_lt`). -/
structure Program.LeadsTo (document : Nat) (doc : SkillDocument) (span : DocumentSpan)
    (text : String) (target : Nat) (p : Program) : Prop where
  number : ∀ n, Draft.labelNumber? (Draft.labelName text) = some n →
    ∃ t ∈ doc.steps, t.number = n ∧ p.BeginsStep document span t target
  step : ∀ t ∈ doc.steps, t.number < Word.count64 → StepLabel doc.name t.number text →
    p.BeginsStep document span t target
  tag : PlainTag text → ∀ i, span.start ≤ i → i < span.stop →
    p.op? i = some (.stub (.tag text)) → p.LastTag span text target

namespace Draft.Resolution

variable {main : SkillDocument} {library : SkillLibrary} {taken : List (String × SkillDocument)}
  {first linked last : Draft} {k target : Nat} {doc : SkillDocument} {text : String}

theorem leadsTo (h : Resolution main library taken first linked last)
    (hk : (main :: taken.map (·.2))[k]? = some doc) (hnumbered : doc.Numbered)
    (htarget : linked.labelTarget? k text = some target) :
    (last.finish main).LeadsTo k doc (spanIn (main :: taken.map (·.2)) k doc) text target := by
  have hnumber : ∀ n, labelNumber? (labelName text) = some n → ∃ t ∈ doc.steps, t.number = n ∧
      (last.finish main).BeginsStep k (spanIn (main :: taken.map (·.2)) k doc) t target := by
    intro n hn
    obtain ⟨before, t, after, hsteps, rfl, hbefore, rfl⟩ := h.step_of_label hk htarget hn
    have ht : t ∈ doc.steps := hsteps ▸ List.mem_append_right _ List.mem_cons_self
    obtain ⟨c, hc⟩ := h.holds.indexed.coded k doc hk t ht
    exact ⟨t, ht, rfl, h.written.beginsStep hk hsteps hbefore hc⟩
  refine ⟨hnumber, fun t ht hlt hlabel => ?_, fun hplain i hle hlt htag => ?_⟩
  · obtain ⟨t', ht', heq, hbegins⟩ := hnumber t.number (hlabel.number hlt)
    rwa [← SkillDocument.eq_of_number hnumbered ht' ht heq]
  · obtain ⟨j, hj⟩ := exists_lastTag? hle hlt (h.written.op?_tag.1 htag)
    obtain ⟨hinside, htagj, hlast⟩ := lastTag?_eq_some hj
    obtain rfl := h.tag_of_label hk htarget (hplain.labelName.symm ▸ hplain.numberless)
      (hplain.labelName.symm ▸ hj)
    exact ⟨hinside, h.written.op?_tag.2 htagj,
      fun i hji hi htagi => hlast i hji hi (h.written.op?_tag.1 htagi)⟩

end Draft.Resolution

/-- In every resolved program a jump goes where its label says. The number of a step, its key and the
text of its address lead to the first instruction that stands for the step, and so does every other
text that reads as its number; and the name of a tag leads to the last tag of that name in the
document, unless it is cut or reads as a number. -/
theorem gotos_reach_labels {main : SkillDocument} {library : SkillLibrary} {p : Program}
    (hmain : main.Numbered) (hlibrary : library.Orderly) (h : resolve main library = .ok p) :
    ∃ taken, p.Written (main :: taken) ∧ (∀ doc ∈ taken, Reaches main library doc) ∧
      ∀ k doc, (main :: taken)[k]? = some doc → ∀ s ∈ doc.steps, ∀ text, s.GoesTo text →
        ∃ j target, p.BeginsStep k (spanIn (main :: taken) k doc) s j ∧
          p.op? j = some (.goto target none) ∧
          p.LeadsTo k doc (spanIn (main :: taken) k doc) text target := by
  obtain ⟨taken, first, linked, last, hresolution, rfl⟩ := Draft.resolution_of_resolve h
  obtain ⟨seen, hgathering⟩ := hresolution.gathering
  refine ⟨taken.map (·.2), hresolution.written,
    fun doc hdoc => hgathering.reached (List.mem_cons_of_mem _ hdoc), ?_⟩
  intro k doc hk s hs text hgoes
  have hnumbered := hresolution.numbered hmain hlibrary doc (List.mem_of_getElem? hk)
  obtain ⟨before, after, hsteps⟩ := List.append_of_mem hs
  obtain ⟨target, htarget, hop⟩ := hresolution.goto_of_step hk hsteps hgoes
  have hbefore : ∀ u ∈ before, u.number ≠ s.number := by
    intro u hu
    unfold SkillDocument.Numbered at hnumbered
    rw [hsteps] at hnumbered
    exact Nat.ne_of_lt ((List.pairwise_append.1 hnumbered).2.2 u hu s List.mem_cons_self)
  exact ⟨_, target, hresolution.written.beginsStep hk hsteps hbefore (hgoes.code k), hop,
    hresolution.leadsTo hk hnumbered htarget⟩

/-- A document that goes to a counted loop by its address, to a tag and to the tag's step. -/
def retryingDocument : SkillDocument where
  name := "main"
  header := .empty
  steps := [⟨"step 5", 5, "Goto", [("goto", .text "main!step 20")]⟩,
    ⟨"step 10", 10, "Goto", [("goto", .text "retry")]⟩,
    ⟨"step 15", 15, "Stub", [("stub_name", .text "tag"), ("func_name", .text "retry")]⟩,
    ⟨"step 20", 20, "Repeat", [("lc_name", .text "i"), ("count", .int 3)]⟩,
    ⟨"step 25", 25, "Stub", [("stub_name", .text "end loop")]⟩,
    ⟨"step 30", 30, "Goto", [("goto", .int 15)]⟩]

/-- The program of `retryingDocument`. -/
def retryingProgram : Program where
  name := "main"
  skid := ""
  instructions :=
    #[⟨⟨"main", 5, false⟩, .goto 3 none⟩, ⟨⟨"main", 10, false⟩, .goto 2 none⟩,
      ⟨⟨"main", 15, false⟩, .stub (.tag "retry")⟩,
      ⟨⟨"main", 20, true⟩, RawStep.resetCounter "i"⟩, ⟨⟨"main", 20, false⟩, .loop "" "3" "i" 6⟩,
      ⟨⟨"main", 25, false⟩, .goto 4 (some "i")⟩, ⟨⟨"main", 30, false⟩, .goto 2 none⟩,
      ⟨⟨"main", 30, true⟩, .finish⟩]
  functions := []
  skills := [("main", 0)]
  handlers := []
  documents := [⟨"main", 0, 8⟩]

theorem resolve_retryingDocument : resolve retryingDocument .empty = .ok retryingProgram :=
  resolve_of_sorted rfl (by decide) (by decide) (by decide)

theorem gotos_reach_labels_retrying :
    (∃ j target, retryingProgram.op? j = some (.goto target none) ∧
      retryingProgram.BeginsStep 0 ⟨"main", 0, 8⟩
        ⟨"step 5", 5, "Goto", [("goto", .text "main!step 20")]⟩ j ∧
      retryingProgram.instructions[target]? =
        some ⟨⟨"main", 20, true⟩, RawStep.resetCounter "i"⟩) ∧
    ∃ j target, retryingProgram.op? j = some (.goto target none) ∧
      retryingProgram.BeginsStep 0 ⟨"main", 0, 8⟩
        ⟨"step 10", 10, "Goto", [("goto", .text "retry")]⟩ j ∧
      retryingProgram.LastTag ⟨"main", 0, 8⟩ "retry" target := by
  obtain ⟨taken, -, -, hlabels⟩ :=
    gotos_reach_labels (by decide) .empty resolve_retryingDocument
  have hmain := hlabels 0 retryingDocument rfl
  have hspan : spanIn (retryingDocument :: taken) 0 retryingDocument = ⟨"main", 0, 8⟩ := rfl
  rw [hspan] at hmain
  refine ⟨?_, ?_⟩
  · obtain ⟨j, target, hbegins, hop, hleads⟩ := hmain _ List.mem_cons_self _ ⟨rfl, _, rfl, rfl⟩
    have hloop := hleads.step ⟨"step 20", 20, "Repeat", [("lc_name", .text "i"), ("count", .int 3)]⟩
      (by simp [retryingDocument]) (by decide) (.inr (.inr rfl))
    exact ⟨j, target, hop, hbegins, hloop.counted rfl rfl rfl⟩
  · obtain ⟨j, target, hbegins, hop, hleads⟩ :=
      hmain _ (List.mem_cons_of_mem _ List.mem_cons_self) _ ⟨rfl, _, rfl, rfl⟩
    exact ⟨j, target, hop, hbegins,
      hleads.tag ⟨by decide, rfl, rfl⟩ 2 (by decide) (by decide) rfl⟩

/-- A document with a tag whose name is the number of another step. -/
def clashingDocument : SkillDocument where
  name := "main"
  header := .empty
  steps := [⟨"step 1", 1, "Goto", [("goto", .text "3")]⟩,
    ⟨"step 2", 2, "Stub", [("stub_name", .text "tag"), ("func_name", .text "3")]⟩,
    ⟨"step 3", 3, "Halt", []⟩]

/-- The program of `clashingDocument`. -/
def clashingProgram : Program where
  name := "main"
  skid := ""
  instructions :=
    #[⟨⟨"main", 1, false⟩, .goto 2 none⟩, ⟨⟨"main", 2, false⟩, .stub (.tag "3")⟩,
      ⟨⟨"main", 3, false⟩, .action "Halt" []⟩, ⟨⟨"main", 3, true⟩, .finish⟩]
  functions := []
  skills := [("main", 0)]
  handlers := []
  documents := [⟨"main", 0, 4⟩]

/-- A jump to the name of a tag does not lead to a tag of that name if the name is the number of a
step. -/
theorem not_tags_reached : ¬∀ main library p, main.Numbered → SkillLibrary.Orderly library →
    resolve main library = .ok p → ∃ taken, p.Written (main :: taken) ∧
      ∀ k doc, (main :: taken)[k]? = some doc → ∀ s ∈ doc.steps, ∀ name, s.GoesTo name →
        (∃ i, (spanIn (main :: taken) k doc).start ≤ i ∧ i < (spanIn (main :: taken) k doc).stop ∧
          p.op? i = some (.stub (.tag name))) →
        ∃ j target, p.BeginsStep k (spanIn (main :: taken) k doc) s j ∧
          p.op? j = some (.goto target none) ∧ p.op? target = some (.stub (.tag name)) := by
  intro h
  have hresolve : resolve clashingDocument .empty = .ok clashingProgram :=
    resolve_of_sorted rfl (by decide) (by decide) (by decide)
  obtain ⟨taken, -, htags⟩ := h clashingDocument .empty clashingProgram (by decide) .empty hresolve
  have hspan : spanIn (clashingDocument :: taken) 0 clashingDocument = ⟨"main", 0, 4⟩ := rfl
  have hmain := htags 0 clashingDocument rfl
  rw [hspan] at hmain
  obtain ⟨j, target, -, hop, htag⟩ := hmain _ List.mem_cons_self _ ⟨rfl, _, rfl, rfl⟩
    ⟨1, by decide, by decide, rfl⟩
  match j with
  | 0 =>
    cases hop
    cases htag
  | 1 | 2 | 3 => cases hop
  | j + 4 => cases hop

end Deskhand
