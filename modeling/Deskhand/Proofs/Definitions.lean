import Deskhand.Proofs.Handlers
import Deskhand.Proofs.Layout
import Deskhand.Proofs.Origins
import Deskhand.Proofs.WellNested

/-!
# Definitions of functions and tags

Where the functions of a document begin can be read off what is laid out of it (`definition?`), and so
can where its tags stand (`lastTag?`). While a document is linked, what is still to be visited stands
there as it was laid out, so the tables of a document come to know the first function of every name and
the last tag, and no name that has been led somewhere is led out of its document
(`LinkState.Surveying`). What holds of all documents in the end is `Draft.Surveyed`.
-/

namespace Deskhand

/-! ## Reading definitions off the layout -/

/-- The parameter of the function of a name, if the operation begins one. -/
def Op.defines? (f : String) : Op → Option String
  | stub (.startFunction name param) => if name = f then some param else none
  | _ => none

/-- The body of the function of a name that begins at an index, and the name of its parameter. -/
def definedAt? (f : String) (code : List Instruction) (j : Nat) : Option (Nat × String) :=
  code[j]?.bind fun i => (i.op.defines? f).map (j + 1, ·)

/-- The body of the first function of a name in a range, and the name of its parameter. -/
def definition? (f : String) (code : List Instruction) (span : DocumentSpan) :
    Option (Nat × String) :=
  (List.range' span.start (span.stop - span.start)).findSome? (definedAt? f code)

theorem definedAt?_of_op? {d : Draft} {j : Nat} {op : Op} (f : String) (h : d.op? j = some op) :
    definedAt? f d.instructions.toList j = (op.defines? f).map (j + 1, ·) := by
  rw [Draft.op?_eq_toList] at h
  obtain ⟨i, hi, rfl⟩ := Option.map_eq_some_iff.1 h
  unfold definedAt?
  rw [hi]
  rfl

/-- The index, if the tag of a name stands there. -/
def tagAt? (name : String) (code : List Instruction) (j : Nat) : Option Nat :=
  if code[j]?.bind (·.op.tagName?) = some name then some j else none

/-- The last tag of a name in a range. -/
def lastTag? (name : String) (code : List Instruction) (span : DocumentSpan) : Option Nat :=
  (List.range' span.start (span.stop - span.start)).reverse.findSome? (tagAt? name code)

theorem tagAt?_of_op? {d : Draft} {j : Nat} {op : Op} (name : String) (h : d.op? j = some op) :
    tagAt? name d.instructions.toList j = if op.tagName? = some name then some j else none := by
  rw [Draft.op?_eq_toList] at h
  obtain ⟨i, hi, rfl⟩ := Option.map_eq_some_iff.1 h
  unfold tagAt?
  rw [hi]
  rfl

namespace Draft

/-- The part of a document that lies ahead of an index. -/
def ahead (document next : Nat) (d : Draft) : List Nat :=
  List.range' (d.bound document) (min next (d.bound (document + 1)) - d.bound document)

theorem ahead_of_le {document next : Nat} {d : Draft} (h : next ≤ d.bound document) :
    d.ahead document next = [] := by
  unfold ahead
  rw [show min next (d.bound (document + 1)) - d.bound document = 0 by omega]
  rfl

theorem ahead_of_ge {document next : Nat} {d : Draft} (h : d.bound (document + 1) ≤ next) :
    d.ahead document next =
      List.range' (d.bound document) (d.bound (document + 1) - d.bound document) := by
  unfold ahead
  rw [Nat.min_eq_right h]

/-- Going on by one adds the index to its own document only. -/
theorem Laid.ahead_succ {d : Draft} (h : d.Laid) {k index : Nat} (hle : d.bound k ≤ index)
    (hlt : index < d.bound (k + 1)) (document : Nat) :
    d.ahead document (index + 1) =
      d.ahead document index ++ if document = k then [index] else [] := by
  split
  · next heq =>
    subst heq
    unfold ahead
    rw [Nat.min_eq_left (by omega), Nat.min_eq_left (by omega),
      Nat.sub_add_comm hle, List.range'_concat]
    congr 2
    omega
  · next hne =>
    rw [List.append_nil]
    rcases Nat.lt_or_gt_of_ne hne with hbefore | hbehind
    · have hbound : d.bound (document + 1) ≤ d.bound k := h.bound_le hbefore
      rw [ahead_of_ge (by omega), ahead_of_ge (by omega)]
    · have hbound : d.bound (k + 1) ≤ d.bound document := h.bound_le hbehind
      rw [ahead_of_le (by omega), ahead_of_le (by omega)]

end Draft

namespace LinkState

open Draft

/-! ## One visit -/

variable {first : Draft} {document index : Nat} {op : Op} {s s' : LinkState}

/-- A visit notes the function that begins there, in its own document, and no other. -/
theorem Visited.functions (hv : s.Visited document index op s') {k : Nat} {sec' : Section}
    (hk : s'.draft.sections[k]? = some sec') : ∃ sec, s.draft.sections[k]? = some sec ∧
      ∀ f, sec'.functions.get? f = (sec.functions.get? f).or
        (if k = document then (op.defines? f).map (index + 1, ·) else none) := by
  have hsame : (∀ f, op.defines? f = none) → s'.draft.sections = s.draft.sections →
      ∃ sec, s.draft.sections[k]? = some sec ∧ ∀ f, sec'.functions.get? f =
        (sec.functions.get? f).or
          (if k = document then (op.defines? f).map (index + 1, ·) else none) := by
    intro hnone hsections
    refine ⟨sec', hsections ▸ hk, fun f => ?_⟩
    rw [hnone f, Option.map_none, ite_self, Option.or_none]
  cases hv with
  | startFunction name param =>
    obtain ⟨sec, hsec, rfl⟩ := section_of_modify hk
    refine ⟨sec, hsec, fun f => ?_⟩
    split
    · rw [Entries.get?_putNew]
      by_cases hname : name = f
      · simp [Op.defines?, hname]
      · simp [Op.defines?, hname, Ne.symm hname]
    · exact Option.or_none.symm
  | tag name =>
    obtain ⟨sec, hsec, rfl⟩ := section_of_modify hk
    refine ⟨sec, hsec, fun f => ?_⟩
    have hnone : (Op.stub (.tag name)).defines? f = none := rfl
    rw [hnone, Option.map_none, ite_self, Option.or_none]
    split <;> rfl
  | endLoop increment _ =>
    have hrefl := Reworked.refl s.draft
    exact hsame (fun _ => rfl) (((hrefl.modifyOp _ _).setOp _ _).foldl_setOp _ _).sections
  | other _ hpassed =>
    refine hsame (fun f => ?_) rfl
    cases op with
    | stub kind =>
      cases kind with
      | startFunction => cases hpassed
      | _ => rfl
    | _ => rfl
  | _ => exact hsame (fun _ => rfl) rfl

/-- A visit notes the tag that stands there, in its own document, and no other. -/
theorem Visited.labels (hv : s.Visited document index op s') {k : Nat} {sec' : Section}
    (hk : s'.draft.sections[k]? = some sec') : ∃ sec, s.draft.sections[k]? = some sec ∧
      sec'.steps = sec.steps ∧ ∀ name, sec'.tags.get? name =
        (if k = document ∧ op.tagName? = some name then some index else none).or
          (sec.tags.get? name) := by
  have hsame : op.tagName? = none → s'.draft.sections = s.draft.sections →
      ∃ sec, s.draft.sections[k]? = some sec ∧ sec'.steps = sec.steps ∧ ∀ name,
        sec'.tags.get? name = (if k = document ∧ op.tagName? = some name then some index
          else none).or (sec.tags.get? name) := by
    intro hnone hsections
    refine ⟨sec', hsections ▸ hk, rfl, fun name => ?_⟩
    rw [hnone, if_neg (by simp), Option.none_or]
  cases hv with
  | startFunction name param =>
    obtain ⟨sec, hsec, rfl⟩ := section_of_modify hk
    refine ⟨sec, hsec, by split <;> rfl, fun other => ?_⟩
    have hnone : (Op.stub (.startFunction name param)).tagName? = none := rfl
    simp only [hnone, reduceCtorEq, and_false, if_false, Option.none_or]
    split <;> rfl
  | tag name =>
    obtain ⟨sec, hsec, rfl⟩ := section_of_modify hk
    refine ⟨sec, hsec, by split <;> rfl, fun other => ?_⟩
    by_cases hname : name = other
    · subst hname
      split <;> simp_all [Op.tagName?]
    · split <;> simp_all [Op.tagName?, Entries.get?_put_of_ne, Ne.symm hname]
  | endLoop increment _ =>
    have hrefl := Reworked.refl s.draft
    exact hsame rfl (((hrefl.modifyOp _ _).setOp _ _).foldl_setOp _ _).sections
  | other _ _ htag => exact hsame htag rfl
  | _ => exact hsame rfl rfl

/-- A visit opens a loop, or leaves those alone that are open, unless it closes one. -/
theorem Visited.loops (hv : s.Visited document index op s') (hend : op ≠ .stub .endLoop) {j : Nat}
    (hj : ∃ breaks, .loop j breaks ∈ s.constructs) : ∃ breaks, .loop j breaks ∈ s'.constructs := by
  have henter : ∀ c, ∃ breaks, .loop j breaks ∈ c :: s.constructs := fun c =>
    hj.imp fun breaks hin => List.mem_cons_of_mem c hin
  have hleave : ∀ {c : Construct} {rest : List Construct}, s.constructs = c :: rest →
      (∀ breaks, c ≠ .loop j breaks) → ∃ breaks, .loop j breaks ∈ rest := by
    intro c rest hc hne
    obtain ⟨breaks, hin⟩ := hj
    rw [hc] at hin
    exact ⟨breaks, (List.mem_cons.1 hin).resolve_left fun heq => hne breaks heq.symm⟩
  cases hv with
  | condition | loop | startFunction | startSkill => exact henter _
  | orElse hc => exact (hleave hc nofun).imp fun _ => List.mem_cons_of_mem _
  | endWhen hc => exact hleave hc nofun
  | endChoose hc => exact hleave hc nofun
  | breakLoop hc => exact loop_of_addBreak hc hj
  | endLoop => exact absurd rfl hend
  | endFunction _ hc => exact hleave hc nofun
  | endSkill _ hc => exact hleave hc nofun
  | strayEnd | handler | endException | tag | other => exact hj

/-! ## Linking a document -/

/-- Names lead into the documents that are their homes. -/
def Housed (first : Draft) (home : String → Nat → Prop) (skills : Entries Nat) : Prop :=
  ∀ name k, home name k →
    ∃ e, skills.get? name = some e ∧ first.bound k ≤ e ∧ e < first.bound (k + 1)

/-- The documents know where their steps began at first, and the tags that lie ahead of an index. -/
def Labelled (first : Draft) (next : Nat) (d : Draft) : Prop :=
  ∀ (k : Nat) (sec : Section), d.sections[k]? = some sec →
    (∃ old, first.sections[k]? = some old ∧ sec.steps = old.steps) ∧
    ∀ name, sec.tags.get? name =
      (first.ahead k next).reverse.findSome? (tagAt? name first.instructions.toList)

/-- What holds while a document is linked that begins at an index, up to the next instruction to
visit. -/
structure Surveying (first : Draft) (home : String → Nat → Prop) (start next : Nat)
    (s : LinkState) : Prop where
  layout : SameLayout first s.draft
  behind : ∀ c ∈ s.constructs, c.Behind next
  handler : ∀ start, s.handler = some start → start < next
  /-- What is still to be visited stands there as it was laid out. -/
  kept : ∀ j, next ≤ j → s.draft.op? j = first.op? j
  functions : ∀ (k : Nat) (sec : Section), s.draft.sections[k]? = some sec → ∀ f,
    sec.functions.get? f = (first.ahead k next).findSome? (definedAt? f first.instructions.toList)
  labels : Labelled first next s.draft
  housed : Housed first home s.draft.skills
  /-- A loop is open when it was read, and after an end of the document too. -/
  opened : ∀ j guard count counter stop, start ≤ j →
    first.op? j = some (.loop guard count counter stop) →
    j + 1 = next ∨ j + 2 = next ∧ (∃ op, first.op? (j + 1) = some op ∧ op.Ends) →
    ∃ breaks, .loop j breaks ∈ s.constructs

theorem Housed.put {home : String → Nat → Prop} {skills : Entries Nat}
    (h : Housed first home skills) {title : String} {k e : Nat}
    (hhome : ∀ n, home title n → n = k) (hle : first.bound k ≤ e)
    (hlt : e < first.bound (k + 1)) : Housed first home (skills.put title e) := by
  intro name n hn
  by_cases hname : name = title
  · subst hname
    obtain rfl := hhome n hn
    exact ⟨e, Entries.get?_put_self _ _ _, hle, hlt⟩
  · rw [Entries.get?_put_of_ne _ _ hname]
    exact h name n hn

theorem Housed.putNew {home : String → Nat → Prop} {skills : Entries Nat}
    (h : Housed first home skills) (name : String) (e : Nat) :
    Housed first home (skills.putNew name e) := by
  intro other n hn
  obtain ⟨e', he', hin⟩ := h other n hn
  exact ⟨e', Entries.get?_putNew_of_some _ he', hin⟩

/-- A visit leads no name out of its home. -/
theorem Visited.housed {home : String → Nat → Prop} (h : Housed first home s.draft.skills)
    (hv : s.Visited document index op s') (hhome : ∀ sec, s.draft.sections[document]? = some sec →
      ∀ n, home sec.span.name n → n = document)
    (hdoc : document < s.draft.sections.size) (hle : first.bound document ≤ index)
    (hnext : ∀ name, op = .stub (.startSkill name) → index + 1 < first.bound (document + 1)) :
    Housed first home s'.draft.skills := by
  rcases hv.reworked with hsame | ⟨name, param, -, rfl⟩ | ⟨name, hop, rfl⟩ | ⟨name, -, heq⟩
  · rw [hsame.skills]
    exact h
  · exact h
  · have hsec : s.draft.sections[document]? = some s.draft.sections[document] :=
      Array.getElem?_eq_getElem hdoc
    have hput := h.put (hhome _ hsec) (Nat.le_succ_of_le hle) (hnext name hop)
    unfold linkStartSkill
    dsimp only
    rw [hsec]
    split
    · exact hput
    · exact hput.putNew _ _
  · rw [heq]
    exact h

/-- A visit comes to know the tag that stands there. -/
theorem Visited.labelled (hlaid : first.Laid) (h : Labelled first index s.draft)
    (hv : s.Visited document index op s') (hle : first.bound document ≤ index)
    (hlt : index < first.bound (document + 1)) (hop : first.op? index = some op) :
    Labelled first (index + 1) s'.draft := by
  intro k sec hk
  obtain ⟨before, hbefore, hsteps, htags⟩ := hv.labels hk
  obtain ⟨⟨old, hold, hsame⟩, hknown⟩ := h k before hbefore
  refine ⟨⟨old, hold, hsteps.trans hsame⟩, fun name => ?_⟩
  rw [htags, hknown, hlaid.ahead_succ hle hlt, List.reverse_append, List.findSome?_append]
  congr 1
  by_cases heq : k = document
  · rw [if_pos heq, List.reverse_singleton, List.findSome?_singleton, tagAt?_of_op? name hop]
    simp [heq]
  · rw [if_neg heq, if_neg fun h => heq h.1]
    rfl

theorem Visited.handler_eq (hv : s.Visited document index op s') {start : Nat}
    (h : s'.handler = some start) : start = index ∨ s.handler = some start := by
  cases hv with
  | handler => exact .inl (Option.some.inj h).symm
  | endException => cases h
  | _ => exact .inr h

/-- What a first draft is to be, so that names that are defined in it are found. -/
structure Readable (first : Draft) (home : String → Nat → Prop) : Prop where
  laid : first.Laid
  drafted : first.Drafted
  /-- A document whose name has a home is this home. -/
  homes : ∀ (k : Nat) (sec : Section), first.sections[k]? = some sec →
    ∀ n, home sec.span.name n → n = k

variable {home : String → Nat → Prop}

/-- A skill does not begin where its document ends. -/
theorem Readable.startSkill_lt (hfirst : Readable first home) (hdoc : document < first.sections.size)
    {name : String} (hop : first.op? index = some (.stub (.startSkill name)))
    (hlt : index < first.bound (document + 1)) : index + 1 < first.bound (document + 1) := by
  have hsec : first.sections[document]? = some first.sections[document] :=
    Array.getElem?_eq_getElem hdoc
  obtain ⟨j, hj, -, hend⟩ := hfirst.drafted.ends document _ hsec
  rw [hfirst.laid.next document _ hsec] at hj
  refine Nat.lt_of_le_of_ne hlt fun heq => ?_
  obtain rfl : j = index := by omega
  rw [hop] at hend
  split at hend <;> cases hend

/-- A visit goes on reading the document. -/
theorem Surveying.visit (hfirst : Readable first home) (hdoc : document < first.sections.size)
    (hs : Surveying first home (first.bound document) index s)
    (hle : first.bound document ≤ index) (hlt : index < first.bound (document + 1))
    (hop : s.draft.op? index = some op) (hv : s.Visited document index op s') :
    Surveying first home (first.bound document) (index + 1) s' := by
  have hfirstop : first.op? index = some op := (hs.kept index (Nat.le_refl _)).symm.trans hop
  refine ⟨hs.layout.trans hv.sameLayout, hv.behind hs.behind, fun start hstart => ?_,
    fun j hj => ?_, fun k sec hk f => ?_, hv.labelled hfirst.laid hs.labels hle hlt hfirstop, ?_,
    fun j guard count counter stop hj hloop hnext => ?_⟩
  · rcases hv.handler_eq hstart with rfl | hstart
    · exact Nat.lt_succ_self _
    · exact Nat.lt_succ_of_lt (hs.handler start hstart)
  · exact (hv.ahead hs.behind hs.handler (Nat.lt_of_succ_le hj)).trans
      (hs.kept j (Nat.le_of_succ_le hj))
  · obtain ⟨old, hold, heq⟩ := hv.functions hk
    rw [heq f, hs.functions k old hold f, hfirst.laid.ahead_succ hle hlt, List.findSome?_append]
    congr 1
    split
    · rw [List.findSome?_singleton, definedAt?_of_op? f hfirstop]
    · rfl
  · refine hv.housed hs.housed (fun sec hsec => ?_) (hs.layout.sections.symm ▸ hdoc) hle
      fun name hname => hfirst.startSkill_lt hdoc (hname ▸ hfirstop) hlt
    obtain ⟨old, hold, hspan⟩ := hs.layout.span document sec hsec
    rw [hspan]
    exact hfirst.homes document old hold
  · rcases hnext with hnext | ⟨hnext, last, hlast, hends⟩
    · obtain rfl : j = index := Nat.succ.inj hnext
      rw [hfirstop] at hloop
      cases hloop
      cases hv with
      | loop => exact ⟨[], List.mem_cons_self⟩
      | other _ hpassed => cases hpassed
    · obtain rfl : j + 1 = index := Nat.succ.inj hnext
      rw [hfirstop] at hlast
      cases hlast
      refine hv.loops ?_ (hs.opened j guard count counter stop hj hloop (.inl rfl))
      rintro rfl
      cases hends

theorem Surveying.visitFrom (hfirst : Readable first home) (hdoc : document < first.sections.size)
    (n : Nat) (hs : Surveying first home (first.bound document) index s)
    (hle : first.bound document ≤ index) (hn : index + n ≤ first.bound (document + 1))
    (h : LinkState.visitFrom document index n s = .ok s') :
    Surveying first home (first.bound document) (index + n) s' := by
  induction n generalizing index s with
  | zero =>
    cases h
    exact hs
  | succ n ih =>
    unfold LinkState.visitFrom at h
    split at h
    · next hnone =>
      have hsize : s.draft.size ≤ index := Array.getElem?_eq_none_iff.1 hnone
      have hwithin := hfirst.laid.within (document + 1)
      rw [hs.layout.size] at hsize
      exact absurd hsize (by omega)
    · next i hi =>
      obtain ⟨s₁, h₁, h⟩ := bind_eq_ok h
      have hop : s.draft.op? index = some i.op := congrArg (Option.map Instruction.op) hi
      have hs' := ih (hs.visit hfirst hdoc hle (by omega) hop (visited h₁))
        (Nat.le_succ_of_le hle) (by omega) h
      rwa [Nat.add_right_comm, Nat.add_assoc] at hs'

end LinkState

namespace Draft

open LinkState

/-! ## Linking all documents -/

/-- What holds of a draft whose first documents are linked. -/
structure Surveyed (first : Draft) (home : String → Nat → Prop) (k : Nat) (d : Draft) : Prop where
  layout : SameLayout first d
  kept : ∀ j, first.bound k ≤ j → d.op? j = first.op? j
  functions : ∀ (m : Nat) (sec : Section), d.sections[m]? = some sec → ∀ f, sec.functions.get? f =
    (first.ahead m (first.bound k)).findSome? (definedAt? f first.instructions.toList)
  labels : Labelled first (first.bound k) d
  housed : Housed first home d.skills
  /-- No loop stands right ahead of the end of a document. -/
  closed : ∀ m < k, ∀ j guard count counter stop, first.bound m ≤ j →
    j + 2 = first.bound (m + 1) → first.op? j ≠ some (.loop guard count counter stop)

variable {first : Draft} {home : String → Nat → Prop}

theorem linkDocument_surveyed {d d' : Draft} {k : Nat} (hfirst : Readable first home)
    (hk : k < first.sections.size) (hd : Surveyed first home k d) (h : d.linkDocument k = .ok d') :
    Surveyed first home (k + 1) d' := by
  obtain ⟨sec, hsec⟩ : ∃ sec, d.sections[k]? = some sec :=
    ⟨_, Array.getElem?_eq_getElem (hd.layout.sections ▸ hk)⟩
  obtain ⟨-, hstart, hstop⟩ := hd.layout.bounds hfirst.laid hsec
  have hordered := hfirst.laid.ordered k
  unfold linkDocument at h
  rw [hsec] at h
  obtain ⟨s, hs, hclose⟩ := bind_eq_ok h
  rw [hstart, hstop] at hs
  have hbegin : Surveying first home (first.bound k) (first.bound k) ⟨d, [], none⟩ := {
    layout := hd.layout
    behind := nofun
    handler := nofun
    kept := hd.kept
    functions := hd.functions
    labels := hd.labels
    housed := hd.housed
    opened := fun j _ _ _ _ hj _ hnext => absurd hnext (by omega) }
  have hend := hbegin.visitFrom hfirst hk _ (Nat.le_refl _) (by omega) hs
  rw [Nat.add_sub_cancel' hordered] at hend
  rw [close_eq hclose]
  refine ⟨hend.layout, hend.kept, hend.functions, hend.labels, hend.housed, ?_⟩
  intro m hm j guard count counter stop hj hlast hloop
  rcases Nat.lt_or_eq_of_le (Nat.le_of_lt_succ hm) with hlt | rfl
  · exact hd.closed m hlt j guard count counter stop hj hlast hloop
  · have hfirstsec : first.sections[m]? = some first.sections[m] := Array.getElem?_eq_getElem hk
    obtain ⟨i, hi, -, hop⟩ := hfirst.drafted.ends m _ hfirstsec
    rw [hfirst.laid.next m _ hfirstsec] at hi
    obtain rfl : i = j + 1 := by omega
    have hends : ∃ op, first.op? (j + 1) = some op ∧ op.Ends := by
      refine ⟨_, hop, ?_⟩
      split
      · exact .finish
      · exact .endSkill _
    obtain ⟨breaks, hin⟩ := hend.opened j guard count counter stop hj hloop (.inr ⟨hlast, hends⟩)
    cases opening_of_close hclose hin

theorem link_surveyed {d : Draft} (hfirst : Readable first home)
    (hnew : ∀ (k : Nat) (sec : Section), first.sections[k]? = some sec →
      sec.functions = [] ∧ sec.tags = [])
    (hhoused : Housed first home first.skills) (h : first.link = .ok d) :
    Surveyed first home first.sections.size d := by
  refine link_induction ?_ (fun _ _ _ hk hd => linkDocument_surveyed hfirst hk hd) h
  have hahead : ∀ m, first.ahead m (first.bound 0) = [] := fun m =>
    ahead_of_le (by rw [hfirst.laid.first]; exact Nat.zero_le _)
  refine ⟨.refl _, fun _ _ => rfl, fun m sec hsec f => ?_,
    fun m sec hsec => ⟨⟨sec, hsec, rfl⟩, fun name => ?_⟩, hhoused, nofun⟩
  · rw [(hnew m sec hsec).1, hahead]
    rfl
  · rw [(hnew m sec hsec).2, hahead]
    rfl

end Draft

end Deskhand
