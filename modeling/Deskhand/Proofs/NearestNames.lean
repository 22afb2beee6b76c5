import Deskhand.Proofs.Coverage

/-!
# Names mean what is defined nearest

In a resolved program a call of a function enters behind the beginning of the first function of that
name in its own document, and otherwise in the first document that has one; the table of functions
knows the latter (`Program.FunctionsNearest`). A call of a skill enters the document that the library
gives for its key, or the main document if its key is a name of it, as long as the library is asked
for plain keys only (`Program.SkillsNearest`, `names_mean_nearest`).
-/

namespace Deskhand

/-! ## The first function of a name -/

/-- At an index of the code a function begins. -/
def BeginsAt (code : List Instruction) (f param : String) (j : Nat) : Prop :=
  code[j]?.map (·.op) = some (.stub (.startFunction f param))

theorem definedAt?_eq_some {f : String} {code : List Instruction} {j entry : Nat} {param : String} :
    definedAt? f code j = some (entry, param) ↔ entry = j + 1 ∧ BeginsAt code f param j := by
  unfold definedAt? BeginsAt
  cases code[j]? with
  | none => simp
  | some i =>
    obtain ⟨address, op⟩ := i
    cases op with
    | stub kind =>
      cases kind with
      | startFunction name param' =>
        by_cases hname : name = f
        · simp [Op.defines?, hname, eq_comm]
        · simp [Op.defines?, hname]
      | _ => simp [Op.defines?]
    | _ => simp [Op.defines?]

theorem definedAt?_eq_none {f : String} {code : List Instruction} {j : Nat} :
    definedAt? f code j = none ↔ ∀ param, ¬BeginsAt code f param j := by
  rw [Option.eq_none_iff_forall_ne_some]
  constructor
  · exact fun h param hbegins => h _ (definedAt?_eq_some.2 ⟨rfl, hbegins⟩)
  · rintro h ⟨entry, param⟩ heq
    exact h param (definedAt?_eq_some.1 heq).2

theorem findSome?_range'_eq_some {α : Type} {g : Nat → Option α} {start n : Nat} {a : α} :
    (List.range' start n).findSome? g = some a ↔ ∃ j, start ≤ j ∧ j < start + n ∧ g j = some a ∧
      ∀ i, start ≤ i → i < j → g i = none := by
  induction n generalizing start with
  | zero =>
    constructor
    · nofun
    · rintro ⟨j, hle, hlt, -⟩
      omega
  | succ n ih =>
    rw [List.range'_succ, List.findSome?_cons]
    cases hstart : g start with
    | some b =>
      constructor
      · intro heq
        exact ⟨start, Nat.le_refl _, by omega, hstart.trans heq, fun i hi hlt => by omega⟩
      · rintro ⟨j, hle, -, hj, hbefore⟩
        rcases Nat.lt_or_eq_of_le hle with hlt | rfl
        · rw [hbefore start (Nat.le_refl _) hlt] at hstart
          cases hstart
        · exact hstart.symm.trans hj
    | none =>
      dsimp only
      rw [ih]
      refine exists_congr fun j => ⟨?_, ?_⟩
      · rintro ⟨hle, hlt, hj, hbefore⟩
        refine ⟨by omega, by omega, hj, fun i hi hij => ?_⟩
        rcases Nat.lt_or_eq_of_le hi with hi | rfl
        · exact hbefore i hi hij
        · exact hstart
      · rintro ⟨hle, hlt, hj, hbefore⟩
        have hne : start ≠ j := by
          rintro rfl
          rw [hstart] at hj
          cases hj
        exact ⟨by omega, by omega, hj, fun i hi hij => hbefore i (by omega) hij⟩

/-- What a name means in a range is the body right behind the first beginning of a function of that
name. -/
theorem definition?_eq_some {f : String} {code : List Instruction} {span : DocumentSpan}
    {entry : Nat} {param : String} :
    definition? f code span = some (entry, param) ↔ ∃ j, span.start ≤ j ∧ j < span.stop ∧
      entry = j + 1 ∧ BeginsAt code f param j ∧
      ∀ i, span.start ≤ i → i < j → ∀ param', ¬BeginsAt code f param' i := by
  unfold definition?
  rw [findSome?_range'_eq_some]
  simp only [definedAt?_eq_some, definedAt?_eq_none, and_assoc]
  refine exists_congr fun j => and_congr_right fun hle => ?_
  rw [show j < span.start + (span.stop - span.start) ↔ j < span.stop by omega]

/-! ## Calls -/

/-- A call of a function has as its entry the body of the first function of that name in its own
document, and otherwise in the first document that has one, with the name of its parameter; and the
table of functions leads to the latter. -/
structure Program.FunctionsNearest (code : List Instruction) (p : Program) : Prop where
  calls : ∀ j f entry param arg output, p.op? j = some (.callFunction f entry param arg output) →
    ∃ span ∈ p.documents, span.start ≤ j ∧ j < span.stop ∧
      (definition? f code span).or (p.documents.findSome? (definition? f code)) =
        some (entry, param)
  table : ∀ f, p.functions.get? f = (p.documents.findSome? (definition? f code)).map (·.1)

/-- The key of the skill that a call names, and the index that it enters. -/
def Op.skillEntry? : Op → Option (String × Nat)
  | useSkill key entry _ _ | overloadSkill key entry _ _ => some (key, entry)
  | _ => none

/-- A call of a skill enters the range of the document that the library gives for its key, or that of
the main document, which is the first, if the key is a name of it. -/
def Program.SkillsNearest (main : SkillDocument) (library : SkillLibrary)
    (docs : List SkillDocument) (p : Program) : Prop :=
  ∀ j op key entry, p.op? j = some op → op.skillEntry? = some (key, entry) →
    ∃ k doc span, docs[k]? = some doc ∧ p.documents[k]? = some span ∧
      span.start ≤ entry ∧ entry < span.stop ∧
      if main.AnswersTo key then k = 0 else library.get? key = some doc

namespace Draft.Resolution

variable {main : SkillDocument} {library : SkillLibrary} {taken : List (String × SkillDocument)}
  {first linked last : Draft}

/-- A document of a linked draft knows the functions that begin in it. -/
theorem get?_functions (h : Resolution main library taken first linked last) {k : Nat} {sec : Section}
    (hk : linked.sections[k]? = some sec) (f : String) : sec.functions.get? f =
      definition? f (Deskhand.layout (main :: taken.map (·.2))) sec.span := by
  obtain ⟨hlt, hstart, hstop⟩ := h.layout.bounds h.laid hk
  rw [h.surveyed.functions k sec hk f, ahead_of_ge (h.laid.bound_le hlt), ← hstart, ← hstop,
    h.holds.code]
  rfl

/-- Looking a function up in all documents is to look for its first beginning in all of them. -/
theorem findSome?_sections {α : Type} (h : Resolution main library taken first linked last)
    (f : String) (g : Nat × String → α) :
    (linked.sections.toList.findSome? fun sec => (sec.functions.get? f).map g) =
      ((last.finish main).documents.findSome?
        (definition? f (Deskhand.layout (main :: taken.map (·.2))))).map g := by
  have hall : ∀ secs : List Section, (∀ sec ∈ secs, ∃ k : Nat, linked.sections[k]? = some sec) →
      (secs.findSome? fun sec => (sec.functions.get? f).map g) = ((secs.map (·.span)).findSome?
        (definition? f (Deskhand.layout (main :: taken.map (·.2))))).map g := by
    intro secs hsecs
    induction secs with
    | nil => rfl
    | cons sec rest ih =>
      obtain ⟨⟨k, hk⟩, hrest⟩ := List.forall_mem_cons.1 hsecs
      rw [List.map_cons, List.findSome?_cons, List.findSome?_cons, h.get?_functions hk f, ih hrest]
      cases definition? f _ sec.span <;> rfl
  change _ = ((last.sections.toList.map (·.span)).findSome? _).map g
  rw [h.sections]
  exact hall _ fun sec hsec => Array.getElem?_of_mem (Array.mem_toList_iff.1 hsec)

theorem functionsNearest (h : Resolution main library taken first linked last) :
    (last.finish main).FunctionsNearest (Deskhand.layout (main :: taken.map (·.2))) where
  calls j f entry param arg output hop := by
    obtain ⟨r, hr, rfl, hfound⟩ :=
      (h.calling.found j _ (.function f) hop rfl).resolve_left fun ⟨_, hr, _⟩ => nomatch hr
    obtain ⟨-, sec₀, hsec₀, hle, hlt⟩ := h.holds.owned r (h.layout.references ▸ hr)
    obtain ⟨hdoc, -⟩ := Array.getElem?_eq_some_iff.1 hsec₀
    obtain ⟨sec, hsec⟩ : ∃ sec, linked.sections[r.document]? = some sec :=
      ⟨_, Array.getElem?_eq_getElem (h.layout.sections.symm ▸ hdoc)⟩
    obtain ⟨old, hold, hspan⟩ := h.layout.span r.document sec hsec
    rw [hsec₀] at hold
    cases hold
    have hin : sec.span ∈ (last.finish main).documents := by
      change sec.span ∈ last.sections.toList.map (·.span)
      rw [h.sections]
      exact List.mem_map_of_mem (Array.mem_toList_iff.2 (Array.mem_of_getElem? hsec))
    refine ⟨sec.span, hin, hspan ▸ hle, hspan ▸ hlt, ?_⟩
    have hall := h.findSome?_sections f id
    simp only [Option.map_id_fun, id_eq] at hall
    change lookUp r.document (fun sec => sec.functions.get? f) linked = some (entry, param) at hfound
    unfold lookUp at hfound
    rw [hsec, Option.bind_some, h.get?_functions hsec f, hall] at hfound
    exact hfound
  table f := by
    change last.functions.sorted.get? f = _
    rw [Entries.get?_sorted (nodup_functions last), Draft.get?_functions, h.sections]
    exact h.findSome?_sections f (·.1)

/-! ## Calls of skills -/

/-- The document that a name belongs to: the main one if it is a name of it, and otherwise the one
that was taken up under it. -/
def Home (main : SkillDocument) (taken : List (String × SkillDocument)) (name : String) (k : Nat) :
    Prop :=
  k = 0 ∧ main.AnswersTo name ∨ ∃ m t, k = m + 1 ∧ taken[m]? = some t ∧ t.2.name = name

theorem readable (h : Resolution main library taken first linked last) (hlibrary : library.Orderly)
    (hplain : AsksPlainly main library) : LinkState.Readable first (Home main taken) where
  laid := h.laid
  drafted := h.drafted
  homes k sec hk n hn := by
    obtain ⟨seen, hgathering⟩ := h.gathering
    have hdistinct := hgathering.distinct hlibrary hplain
    obtain ⟨doc, hdoc, hspan, -⟩ := h.holds.sections k sec hk
    have hname : sec.span.name = doc.name := by
      rw [hspan]
      rfl
    rw [hname] at hn
    have hnames : ((main :: taken.map (·.2)).map (·.name))[k]? = some doc.name := by
      rw [List.getElem?_map, hdoc]
      rfl
    -- a document of that name stands at the home too
    have hhome : ((main :: taken.map (·.2)).map (·.name))[n]? = some doc.name := by
      rcases hn with ⟨rfl, hanswers⟩ | ⟨m, t, rfl, ht, hname⟩
      · rcases k with _ | k
        · exact hnames
        · rw [List.getElem?_cons_succ, List.getElem?_map] at hdoc
          obtain ⟨t, ht, rfl⟩ := Option.map_eq_some_iff.1 hdoc
          exact absurd hanswers (hgathering.named hlibrary hplain (List.mem_of_getElem? ht)).2
      · rw [← hname]
        simp [ht]
    obtain ⟨hlt, hgetk⟩ := List.getElem?_eq_some_iff.1 hnames
    obtain ⟨hlt', hgetn⟩ := List.getElem?_eq_some_iff.1 hhome
    exact (hdistinct.getElem_inj_iff.1 (hgetn.trans hgetk.symm))

theorem bound_lt (h : Resolution main library taken first linked last) {k : Nat}
    {doc : SkillDocument} (hk : (main :: taken.map (·.2))[k]? = some doc) :
    first.bound k < first.bound (k + 1) := by
  obtain ⟨hstart, hstop⟩ := h.holds.bounds h.laid hk
  have hpos := doc.length_instructions_pos k
  rw [hstart, hstop, spanIn_stop hk]
  exact Nat.lt_add_of_pos_right hpos

theorem housed (h : Resolution main library taken first linked last) (hlibrary : library.Orderly)
    (hplain : AsksPlainly main library) : LinkState.Housed first (Home main taken) first.skills := by
  obtain ⟨seen, hgathering⟩ := h.gathering
  rintro name k (⟨rfl, hanswers⟩ | ⟨m, t, rfl, ht, rfl⟩)
  · have hpos := h.bound_lt (k := 0) rfl
    rw [h.laid.first] at hpos ⊢
    exact ⟨0, hgathering.names name hanswers, Nat.le_refl 0, hpos⟩
  · have hname := (hgathering.named hlibrary hplain (List.mem_of_getElem? ht)).1
    have hdoc : (main :: taken.map (·.2))[m + 1]? = some t.2 := by simp [ht]
    obtain ⟨hstart, -⟩ := h.holds.bounds h.laid hdoc
    refine ⟨_, hname ▸ hgathering.entries m t ht hname, Nat.le_of_eq hstart, ?_⟩
    exact hstart ▸ h.bound_lt hdoc

/-- A call of a skill has the entry that the linked draft has for its key. -/
theorem get?_skills_of_call (h : Resolution main library taken first linked last) {j entry : Nat}
    {op : Op} {key : String} (hop : last.op? j = some op)
    (hentry : op.skillEntry? = some (key, entry)) :
    op.callee? = some (.skill key) ∧ linked.skills.get? key = some entry := by
  have hfound : ∀ refers, op.callee? = some refers → ∃ document, op.Found linked document := by
    intro refers hcallee
    obtain ⟨r, -, -, hfound⟩ :=
      (h.calling.found j op refers hop hcallee).resolve_left fun ⟨_, hr, _⟩ => nomatch hr
    exact ⟨_, hfound⟩
  cases op with
  | useSkill | overloadSkill =>
    cases hentry
    obtain ⟨_, hget⟩ := hfound _ rfl
    exact ⟨rfl, hget⟩
  | _ => cases hentry

/-- A skill that the resolved program calls is called by one of its documents. -/
theorem exists_caller (h : Resolution main library taken first linked last) {j : Nat} {op : Op}
    {key : String} (hop : last.op? j = some op) (hcallee : op.callee? = some (.skill key)) :
    ∃ doc ∈ main :: taken.map (·.2), key ∈ doc.calls := by
  obtain ⟨old, hold, hbecomes⟩ := h.calling.becomes j op hop
  rw [op?_eq_toList, h.holds.code] at hold
  obtain ⟨i, hi, rfl⟩ := Option.map_eq_some_iff.1 hold
  exact mem_calls_of_layout (List.mem_of_getElem? hi) (hbecomes.callee?.symm.trans hcallee)

/-- A name leads into the range of the document that it belongs to. -/
theorem inside_home (h : Resolution main library taken first linked last)
    (hlibrary : library.Orderly) (hplain : AsksPlainly main library) {key : String} {entry k : Nat}
    {doc : SkillDocument} (hget : linked.skills.get? key = some entry)
    (hk : (main :: taken.map (·.2))[k]? = some doc) (hhome : Home main taken key k) :
    (spanIn (main :: taken.map (·.2)) k doc).start ≤ entry ∧
      entry < (spanIn (main :: taken.map (·.2)) k doc).stop := by
  have hsurveyed := link_surveyed (h.readable hlibrary hplain)
    (fun _ _ hsec => h.holds.unlinked hsec) (h.housed hlibrary hplain) h.link
  obtain ⟨e, he, hle, hlt⟩ := hsurveyed.housed key k hhome
  rw [hget] at he
  cases he
  obtain ⟨hstart, hstop⟩ := h.holds.bounds h.laid hk
  exact ⟨hstart ▸ hle, hstop ▸ hlt⟩

theorem skillsNearest (h : Resolution main library taken first linked last)
    (hlibrary : library.Orderly) (hplain : AsksPlainly main library) :
    (last.finish main).SkillsNearest main library (main :: taken.map (·.2)) := by
  obtain ⟨seen, hgathering⟩ := h.gathering
  intro j op key entry hop hentry
  obtain ⟨hcallee, hget⟩ := h.get?_skills_of_call hop hentry
  by_cases hanswers : main.AnswersTo key
  · obtain ⟨hle, hlt⟩ := h.inside_home hlibrary hplain hget rfl (.inl ⟨rfl, hanswers⟩)
    exact ⟨0, main, _, rfl, h.written.documents 0, hle, hlt, by rw [if_pos hanswers]⟩
  · obtain ⟨caller, hcaller, hkey⟩ := h.exists_caller hop hcallee
    obtain ⟨t, ht, hname, hasked⟩ := hgathering.exists_taken hlibrary hcaller hkey hanswers
    have hsame := (hgathering.named hlibrary hplain ht).1
    obtain ⟨m, hm⟩ := List.getElem?_of_mem ht
    have hdoc : (main :: taken.map (·.2))[m + 1]? = some t.2 := by simp [hm]
    obtain ⟨hle, hlt⟩ := h.inside_home hlibrary hplain hget hdoc
      (.inr ⟨m, t, rfl, hm, (hname.elim (fun heq => heq.trans hsame) id).symm⟩)
    refine ⟨m + 1, t.2, _, hdoc, ?_, hle, hlt, by rwa [if_neg hanswers]⟩
    rw [h.written.documents, hdoc]
    rfl

end Draft.Resolution

/-! ## Names of resolved programs -/

/-- In every resolved program, calls of functions mean what is defined nearest to them, and calls of
skills the document that their key names, as long as the library is asked for plain keys only. -/
theorem names_mean_nearest {main : SkillDocument} {library : SkillLibrary} {p : Program}
    (hlibrary : library.Orderly) (h : resolve main library = .ok p) :
    ∃ taken, p.Written (main :: taken) ∧ (∀ doc ∈ taken, Reaches main library doc) ∧
      p.FunctionsNearest (layout (main :: taken)) ∧
      (AsksPlainly main library → p.SkillsNearest main library (main :: taken)) := by
  obtain ⟨taken, first, linked, last, hresolution, rfl⟩ := Draft.resolution_of_resolve h
  obtain ⟨seen, hgathering⟩ := hresolution.gathering
  exact ⟨taken.map (·.2), hresolution.written,
    fun doc hdoc => hgathering.reached (List.mem_cons_of_mem _ hdoc), hresolution.functionsNearest,
    hresolution.skillsNearest hlibrary⟩

theorem names_mean_nearest_ordering : ∃ taken, orderingProgram.Written (orderingDocument :: taken) ∧
    taken.map (·.name) = ["web/cart", "web/ship"] ∧
    orderingProgram.FunctionsNearest (layout (orderingDocument :: taken)) ∧
    orderingProgram.SkillsNearest orderingDocument shopLibrary (orderingDocument :: taken) := by
  obtain ⟨taken, hwritten, -, hfunctions, hskills⟩ :=
    names_mean_nearest shopLibrary_orderly resolve_orderingDocument
  exact ⟨taken, hwritten, (List.cons.inj hwritten.names).2.symm, hfunctions,
    hskills asksPlainly_ordering⟩

/-- The function of a document is the one that it calls, although another one was defined before. -/
example : definition? "pay" (layout [orderingDocument, cartDocument, shipDocument])
    ⟨"web/ship", 9, 14⟩ = some (10, "fee") := by decide

/-- A document that calls a skill of its own name by a key with a slash at its end. -/
def shadowingDocument : SkillDocument where
  name := "main"
  header := .empty
  steps := [⟨"step 1", 1, "Use Skill", [("skill_path", .text "main"), ("skill_name", .text "")]⟩]

def shadowedLibrary : SkillLibrary :=
  SkillLibrary.empty.insert
    ⟨"main", .empty, [⟨"step 1", 1, "Halt", []⟩, ⟨"step 2", 2, "Halt", []⟩]⟩

/-- The program of `shadowingDocument`. -/
def shadowingProgram : Program where
  name := "main"
  skid := ""
  instructions :=
    #[⟨⟨"main", 1, false⟩, .useSkill "main/" 0 "" ""⟩, ⟨⟨"main", 1, true⟩, .finish⟩,
      ⟨⟨"main", 1, false⟩, .action "Halt" []⟩, ⟨⟨"main", 2, false⟩, .action "Halt" []⟩,
      ⟨⟨"main", 2, true⟩, .stub (.endSkill "main")⟩]
  functions := []
  skills := [("main", 0), ("main/", 0)]
  handlers := []
  documents := [⟨"main", 0, 2⟩, ⟨"main", 2, 5⟩]

/-- A call by a key with a slash at its end may enter the main document, although the library gives
another document for the key. -/
theorem not_names_mean_nearest : ¬∀ main library p, SkillLibrary.Orderly library →
    resolve main library = .ok p →
    ∃ taken, p.Written (main :: taken) ∧ p.SkillsNearest main library (main :: taken) := by
  intro h
  have hresolve : resolve shadowingDocument shadowedLibrary = .ok shadowingProgram :=
    resolve_of_sorted rfl (by decide) (by decide) (by decide)
  obtain ⟨taken, -, hskills⟩ := h shadowingDocument shadowedLibrary shadowingProgram
    (SkillLibrary.Orderly.empty.insert (by decide)) hresolve
  obtain ⟨k, doc, span, hdoc, hspan, hle, -, hkey⟩ := hskills 0 _ "main/" 0 rfl rfl
  rw [if_neg (by decide)] at hkey
  match k with
  | 0 =>
    cases hdoc
    have hsteps := congrArg (Option.map fun doc => doc.steps.length) hkey
    revert hsteps
    decide
  | 1 =>
    cases hspan
    exact absurd hle (by decide)
  | k + 2 => cases hspan

end Deskhand
