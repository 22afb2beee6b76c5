import Deskhand.Proofs.Drafts

/-!
# The documents of a draft

Taking up documents leaves a jump or a call without a target only where there is an open reference,
and every name leads to an index of the draft (`Draft.Sound`). The documents follow one another, and
the last instruction does not go on to a next one (`Draft.Laid`).
-/

namespace Deskhand

/-! ## Names that lead somewhere -/

namespace Entries

variable {α : Type} {P : α → Prop} {es : Entries α} {name : String} {v : α}

/-- Every value has a property. -/
def AllValues (P : α → Prop) (es : Entries α) : Prop := ∀ e ∈ es, P e.2

theorem AllValues.put (h : es.AllValues P) (hv : P v) : (es.put name v).AllValues P := by
  induction es with
  | nil =>
    intro e he
    obtain rfl := List.mem_singleton.1 he
    exact hv
  | cons first rest ih =>
    obtain ⟨n, w⟩ := first
    unfold Entries.put
    split
    · intro e he
      rcases List.mem_cons.1 he with rfl | he
      · exact hv
      · exact h e (List.mem_cons_of_mem _ he)
    · intro e he
      rcases List.mem_cons.1 he with rfl | he
      · exact h _ List.mem_cons_self
      · exact ih (fun e he => h e (List.mem_cons_of_mem _ he)) e he

theorem AllValues.putNew (h : es.AllValues P) (hv : P v) : (es.putNew name v).AllValues P := by
  unfold Entries.putNew
  split
  · exact h
  · exact h.put hv

theorem AllValues.get? (h : es.AllValues P) (hv : es.get? name = some v) : P v := by
  induction es with
  | nil => cases hv
  | cons first rest ih =>
    obtain ⟨n, w⟩ := first
    unfold Entries.get? at hv
    split at hv
    · cases hv
      exact h _ List.mem_cons_self
    · exact ih (fun e he => h e (List.mem_cons_of_mem _ he)) hv

theorem AllValues.sorted (h : es.AllValues P) : es.sorted.AllValues P :=
  fun e he => h e ((List.mergeSort_perm es _).mem_iff.1 he)

theorem AllValues.mono {Q : α → Prop} (hPQ : ∀ v, P v → Q v) (h : es.AllValues P) :
    es.AllValues Q := fun e he => hPQ _ (h e he)

end Entries

/-! ## Operations with targets -/

namespace Op

/-- Where control may go. The end of a handler's block is left out: it may be the end of the
program. -/
def targets : Op → List Nat
  | checkCondition _ ifElse ifEnd => [ifElse, ifEnd]
  | loop _ _ _ stop => [stop]
  | goto target _ => [target]
  | callFunction _ entry _ _ _ => [entry]
  | useSkill _ entry _ _ => [entry]
  | overloadSkill _ entry _ _ => [entry]
  | _ => []

/-- Where control goes on behind the block of an exception handler. -/
def blockEnd? : Op → Option Nat
  | exceptionHandler _ stop => some stop
  | _ => none

/-- The operation is of the kind that has such a reference. -/
inductive Takes : Op → Reference → Prop
  | goto (target : Nat) (increment : Option String) (text : String) :
    Takes (.goto target increment) (.label text)
  | callFunction (name : String) (entry : Nat) (param arg output f : String) :
    Takes (.callFunction name entry param arg output) (.function f)
  | useSkill (name : String) (entry : Nat) (arg output key : String) :
    Takes (.useSkill name entry arg output) (.skill key)
  | overloadSkill (name : String) (entry : Nat) (arg output key : String) :
    Takes (.overloadSkill name entry arg output) (.skill key)

/-- A jump or a call names an instruction, or its reference is open. -/
structure Jumps (size : Nat) (refs : List OpenReference) (j : Nat) (op : Op) : Prop where
  jump : ∀ target, op.jump? = some target →
    target < size ∨ ∃ r ∈ refs, r.index = j ∧ op.Takes r.refers
  block : ∀ stop, op.blockEnd? = some stop → stop < size ∨ stop = Program.sentinel

/-- Control does not go on to the next instruction. -/
inductive Ends : Op → Prop
  | finish : Ends .finish
  | endSkill (name : String) : Ends (.stub (.endSkill name))
  | goto (target : Nat) (increment : Option String) : Ends (.goto target increment)

theorem Jumps.mono {size size' : Nat} {refs refs' : List OpenReference} {j : Nat} {op : Op}
    (hsize : size ≤ size') (hrefs : ∀ r ∈ refs, r ∈ refs') (h : op.Jumps size refs j) :
    op.Jumps size' refs' j where
  jump target ht := (h.jump target ht).imp (Nat.lt_of_lt_of_le · hsize)
    fun ⟨r, hr, he⟩ => ⟨r, hrefs r hr, he⟩
  block stop hs := (h.block stop hs).imp_left (Nat.lt_of_lt_of_le · hsize)

/-- An operation that does not jump has nowhere to jump to. -/
theorem Jumps.of_eq_none {size : Nat} {refs : List OpenReference} {j : Nat} {op : Op}
    (hjump : op.jump? = none) (hblock : op.blockEnd? = none) : op.Jumps size refs j where
  jump target ht := by rw [hjump] at ht; cases ht
  block stop hs := by rw [hblock] at hs; cases hs

end Op

/-! ## The code of a step -/

/-- The code of a step jumps nowhere, or says what it refers to. -/
structure StepCode.Refers (c : StepCode) : Prop where
  setup : ∀ op ∈ c.setup, ∃ kind args, op = .action kind args
  jump : ∀ target, c.op.jump? = some target →
    ∃ refers, c.refers = some refers ∧ c.op.Takes refers
  block : ∀ stop, c.op.blockEnd? = some stop → stop = Program.sentinel

theorem StepCode.Refers.just {op : Op} (hjump : op.jump? = none) (hblock : op.blockEnd? = none) :
    (StepCode.just op).Refers where
  setup := nofun
  jump target ht := by
    change op.jump? = _ at ht
    rw [hjump] at ht
    cases ht
  block stop hs := by
    change op.blockEnd? = _ at hs
    rw [hblock] at hs
    cases hs

theorem StepCode.Refers.referring {op : Op} {refers : Reference} (h : op.Takes refers) :
    (StepCode.referring op refers).Refers where
  setup := nofun
  jump target ht := ⟨refers, rfl, h⟩
  block stop hs := by cases h <;> cases hs

theorem code_refers {document : Nat} {s : RawStep} {c : StepCode} (h : s.code document = .ok c) :
    c.Refers := by
  cases coded h with
  | loop guard count counter =>
    refine ⟨fun op hop => ?_, nofun, nofun⟩
    change op ∈ (if Text.isBlankText guard then _ else none) at hop
    split at hop
    · cases hop
      exact ⟨_, _, rfl⟩
    · cases hop
  | goto text => exact .referring (.goto _ _ _)
  | callFunction name arg output => exact .referring (.callFunction _ _ _ _ _ _)
  | useSkill key arg output => exact .referring (.useSkill _ _ _ _ _)
  | overloadSkill key arg output => exact .referring (.overloadSkill _ _ _ _ _)
  | exceptionHandler args => exact ⟨nofun, nofun, fun stop hs => (Option.some.inj hs).symm⟩
  | _ => exact .just rfl rfl

/-- What is known about a document leads below a bound. -/
structure Section.Names (size : Nat) (sec : Section) : Prop where
  steps : ∀ e ∈ sec.steps, e.2 < size
  tags : sec.tags.AllValues (· < size)
  functions : sec.functions.AllValues (·.1 < size)

theorem Section.Names.mono {size size' : Nat} (hsize : size ≤ size') {sec : Section}
    (h : sec.Names size) : sec.Names size' where
  steps e he := Nat.lt_of_lt_of_le (h.steps e he) hsize
  tags := h.tags.mono fun _ hv => Nat.lt_of_lt_of_le hv hsize
  functions := h.functions.mono fun _ hv => Nat.lt_of_lt_of_le hv hsize

namespace Draft

/-! ## Taking up documents -/

/-- Every name that a draft knows leads below a bound. -/
structure Names (size : Nat) (d : Draft) : Prop where
  skills : d.skills.AllValues (· < size)
  handlers : d.handlers.AllValues (· < size)
  sections : ∀ (k : Nat) (sec : Section), d.sections[k]? = some sec → sec.Names size

theorem Names.mono {size size' : Nat} (hsize : size ≤ size') {d : Draft} (h : d.Names size) :
    d.Names size' where
  skills := h.skills.mono fun _ hv => Nat.lt_of_lt_of_le hv hsize
  handlers := h.handlers.mono fun _ hv => Nat.lt_of_lt_of_le hv hsize
  sections k sec hk := (h.sections k sec hk).mono hsize

/-- A draft in which every name leads to an instruction, and every jump or call does so or has an
open reference. -/
structure Sound (d : Draft) : Prop where
  names : d.Names d.size
  jumps : d.All (Op.Jumps d.size d.references)

theorem Sound.empty : Draft.empty.Sound where
  names := ⟨fun _ => nofun, fun _ => nofun, fun k sec h => by cases h⟩
  jumps := .empty

theorem Names.of_eq {size : Nat} {d d' : Draft} (h : d.Names size) (hskills : d'.skills = d.skills)
    (hhandlers : d'.handlers = d.handlers) (hsections : d'.sections = d.sections) :
    d'.Names size where
  skills := hskills ▸ h.skills
  handlers := hhandlers ▸ h.handlers
  sections := hsections ▸ h.sections

/-- One more instruction, which may bring a reference or the name of a handler with it. -/
theorem Sound.extend {d : Draft} (h : d.Sound) {i : Instruction} {refs : List OpenReference}
    {handlers : Entries Nat} (hrefs : ∀ r ∈ d.references, r ∈ refs)
    (hi : i.op.Jumps (d.size + 1) refs d.size) (hhandlers : handlers.AllValues (· < d.size + 1)) :
    ({ d.push i with references := refs, handlers } : Draft).Sound where
  names := by
    change Names (d.push i).size _
    rw [size_push]
    have hold := h.names.mono (Nat.le_succ d.size)
    exact ⟨hold.skills, hhandlers, hold.sections⟩
  jumps := by
    change (d.push i).All (Op.Jumps (d.push i).size refs)
    rw [size_push]
    exact All.push (fun j op hj => (h.jumps j op hj).mono (Nat.le_succ _) hrefs) hi

theorem Sound.push {d : Draft} (h : d.Sound) {i : Instruction}
    (hi : i.op.Jumps (d.size + 1) d.references d.size) : (d.push i).Sound :=
  h.extend (fun _ hr => hr) hi (h.names.handlers.mono fun _ hv => Nat.lt_succ_of_lt hv)

theorem jumps_of_refers {c : StepCode} (h : c.Refers) (size document : Nat)
    {refs : List OpenReference} {j : Nat}
    (hrefs : ∀ refers, c.refers = some refers → ⟨j, document, refers⟩ ∈ refs) :
    c.op.Jumps size refs j where
  jump target ht := by
    obtain ⟨refers, hsome, htakes⟩ := h.jump target ht
    exact .inr ⟨_, hrefs refers hsome, rfl, htakes⟩
  block stop hs := .inr (h.block stop hs)

/-- What taking up the code of a step does. -/
structure Grown (d d' : Draft) : Prop where
  sound : d'.Sound
  sections : d'.sections = d.sections
  size : d.size ≤ d'.size

theorem setUp_grown {d : Draft} (hd : d.Sound) (name : String) (number : Nat) {c : StepCode}
    (hc : c.Refers) :
    d.Grown (d.setUp name number c) := by
  unfold setUp
  split
  · next op h =>
    obtain ⟨kind, args, rfl⟩ := hc.setup op (by rw [h]; rfl)
    exact ⟨hd.push (.of_eq_none rfl rfl), rfl, by rw [size_push]; exact Nat.le_succ _⟩
  · exact ⟨hd, rfl, Nat.le_refl _⟩

theorem pushCode_grown {d : Draft} (hd : d.Sound) (name : String) (document number : Nat)
    {c : StepCode} (hc : c.Refers) : d.Grown (d.pushCode name document number c) ∧
      d.size < (d.pushCode name document number c).size := by
  obtain ⟨refs, handlers, heq, hrefs, hhandlers⟩ := pushCode_eq name document number c d
  have hfirst := setUp_grown hd name number hc
  generalize d.setUp name number c = e at *
  have hsize : d.size < (e.push ⟨⟨name, number, false⟩, c.op⟩).size := by
    rw [size_push]
    exact Nat.lt_succ_of_le hfirst.size
  have hold := hfirst.sound.names.handlers.mono fun _ hv => Nat.lt_succ_of_lt hv
  have hnamed : handlers.AllValues (· < e.size + 1) := by
    rcases hhandlers with rfl | rfl
    · exact hold
    · exact hold.putNew (Nat.lt_succ_self _)
  have hjumps : (∀ r ∈ e.references, r ∈ refs) ∧ c.op.Jumps (e.size + 1) refs e.size := by
    rcases hrefs with ⟨hnone, rfl⟩ | ⟨refers, hsome, rfl⟩
    · refine ⟨fun _ hr => hr, jumps_of_refers hc _ document fun refers h => ?_⟩
      rw [hnone] at h
      cases h
    · refine ⟨fun _ hr => List.mem_append_left _ hr, jumps_of_refers hc _ document fun refers' h => ?_⟩
      rw [hsome] at h
      cases h
      exact List.mem_append_right _ List.mem_cons_self
  rw [heq]
  exact ⟨⟨hfirst.sound.extend hjumps.1 hjumps.2 hnamed, hfirst.sections, Nat.le_of_lt hsize⟩, hsize⟩

theorem pushSteps_grown (name : String) (document : Nat) (steps : List RawStep) {d d' : Draft}
    {table : List (Nat × Nat)} {keys : List String} (hd : d.Sound)
    (h : pushSteps name document steps d = .ok (d', table, keys)) :
    d.Grown d' ∧ ∀ e ∈ table, e.2 < d'.size := by
  induction steps generalizing d table keys with
  | nil =>
    cases h
    exact ⟨⟨hd, rfl, Nat.le_refl _⟩, nofun⟩
  | cons s rest ih =>
    obtain ⟨c, hc, h⟩ := bind_eq_ok h
    obtain ⟨⟨after, steps, keys'⟩, hrest, h⟩ := bind_eq_ok h
    cases h
    obtain ⟨hcode, hlt⟩ := pushCode_grown hd name document s.number (code_refers hc)
    obtain ⟨hgrown, hsteps⟩ := ih hcode.sound hrest
    refine ⟨⟨hgrown.sound, hgrown.sections.trans hcode.sections,
      Nat.le_trans hcode.size hgrown.size⟩, fun e he => ?_⟩
    rcases List.mem_cons.1 he with rfl | he
    · exact Nat.lt_of_lt_of_le hlt hgrown.size
    · exact hsteps e he

/-- Where a document begins; behind the last one, the end of the draft. -/
def bound (k : Nat) (d : Draft) : Nat :=
  match d.sections[k]? with
  | some sec => sec.span.start
  | none => d.size

theorem bound_size (d : Draft) : d.bound d.sections.size = d.size := by
  unfold bound
  rw [Array.getElem?_eq_none (Nat.le_refl _)]

/-- Documents follow one another from the beginning of a draft to its end, where nothing goes on. -/
structure Laid (d : Draft) : Prop where
  sound : d.Sound
  first : d.bound 0 = 0
  next : ∀ (k : Nat) (sec : Section), d.sections[k]? = some sec → sec.span.stop = d.bound (k + 1)
  within : ∀ k, d.bound k ≤ d.size
  ordered : ∀ k, d.bound k ≤ d.bound (k + 1)
  last : ∀ j op, d.op? j = some op → j + 1 = d.size → op.Ends

theorem Laid.empty : Draft.empty.Laid where
  sound := .empty
  first := rfl
  next k sec h := by cases h
  within k := Nat.zero_le _
  ordered k := Nat.le_refl 0
  last j op h := by cases h

theorem Laid.skills {d : Draft} (h : d.Laid) {skills : Entries Nat}
    (hskills : skills.AllValues (· < d.size)) : ({ d with skills } : Draft).Laid where
  sound := ⟨⟨hskills, h.sound.names.handlers, h.sound.names.sections⟩, h.sound.jumps⟩
  first := h.first
  next := h.next
  within := h.within
  ordered := h.ordered
  last := h.last

theorem bound_of_push {d d' : Draft} {sec : Section} (h : d'.sections = d.sections.push sec)
    (hstart : sec.span.start = d.size) {k : Nat} (hk : k ≤ d.sections.size) :
    d'.bound k = d.bound k := by
  unfold bound
  rw [h, Array.getElem?_push]
  rcases Nat.lt_or_eq_of_le hk with hlt | rfl
  · rw [if_neg (Nat.ne_of_lt hlt), Array.getElem?_eq_getElem hlt]
  · rw [if_pos rfl, Array.getElem?_eq_none (Nat.le_refl _)]
    exact hstart

theorem bound_of_push_succ {d d' : Draft} {sec : Section} (h : d'.sections = d.sections.push sec) :
    d'.bound (d.sections.size + 1) = d'.size := by
  unfold bound
  rw [h, Array.getElem?_eq_none (Nat.le_of_eq (Array.size_push sec))]

/-- A draft is another one with a document behind it. -/
structure Appended (d : Draft) (sec : Section) (d' : Draft) : Prop where
  sound : d'.Sound
  sections : d'.sections = d.sections.push sec
  start : sec.span.start = d.size
  stop : sec.span.stop = d'.size
  longer : d.size < d'.size
  last : ∀ j op, d'.op? j = some op → j + 1 = d'.size → op.Ends

/-- The document behind is the last one, and the others are those that were there. -/
theorem Appended.lookup {d d' : Draft} {sec new : Section} (h : Appended d new d') {k : Nat}
    (hk : d'.sections[k]? = some sec) :
    k = d.sections.size ∧ sec = new ∨ k < d.sections.size ∧ d.sections[k]? = some sec := by
  rw [h.sections, Array.getElem?_push] at hk
  split at hk
  · next hlast =>
    cases hk
    exact .inl ⟨hlast, rfl⟩
  · exact .inr ⟨(Array.getElem?_eq_some_iff.1 hk).1, hk⟩

theorem Laid.appended {d d' : Draft} {new : Section} (hd : d.Laid) (h : Appended d new d') :
    d'.Laid where
  sound := h.sound
  first := by
    rw [bound_of_push h.sections h.start (Nat.zero_le _)]
    exact hd.first
  next := by
    intro k sec hk
    rcases h.lookup hk with ⟨rfl, rfl⟩ | ⟨hlt, hk⟩
    · rw [bound_of_push_succ h.sections]
      exact h.stop
    · rw [bound_of_push h.sections h.start hlt]
      exact hd.next k sec hk
  within := by
    intro k
    rcases Nat.lt_or_ge d.sections.size k with hlt | hle
    · have hnone : d'.sections[k]? = none := by
        rw [h.sections]
        exact Array.getElem?_eq_none (by rw [Array.size_push]; exact hlt)
      simp only [bound, hnone, Nat.le_refl]
    · rw [bound_of_push h.sections h.start hle]
      exact Nat.le_trans (hd.within k) (Nat.le_of_lt h.longer)
  ordered := by
    intro k
    have hend : ∀ k, d.sections.size < k → d'.bound k = d'.size := by
      intro k hk
      unfold bound
      rw [h.sections, Array.getElem?_eq_none (by rw [Array.size_push]; exact hk)]
    rcases Nat.lt_trichotomy k d.sections.size with hlt | rfl | hgt
    · rw [bound_of_push h.sections h.start (Nat.le_of_lt hlt), bound_of_push h.sections h.start hlt]
      exact hd.ordered k
    · rw [bound_of_push h.sections h.start (Nat.le_refl _), hend _ (Nat.lt_succ_self _)]
      exact Nat.le_trans (hd.within _) (Nat.le_of_lt h.longer)
    · exact Nat.le_of_eq ((hend k hgt).trans (hend (k + 1) (Nat.lt_succ_of_lt hgt)).symm)
  last := h.last

theorem Sound.section {d : Draft} {new : Section} {skills : Entries Nat} (h : d.Sound)
    (hnew : new.Names d.size) (hskills : skills.AllValues (· < d.size)) :
    ({ d with sections := d.sections.push new, skills } : Draft).Sound where
  names := by
    refine ⟨hskills, h.names.handlers, fun k sec hk => ?_⟩
    change (d.sections.push new)[k]? = some sec at hk
    rw [Array.getElem?_push] at hk
    split at hk
    · cases hk
      exact hnew
    · exact h.names.sections k sec hk
  jumps := h.jumps

theorem pushDocument_appended {doc : SkillDocument} {last : Op} (hlast : last.Ends)
    (hjumps : ∀ size refs j, last.Jumps size refs j) {d d' : Draft} {keys : List String}
    (hd : d.Sound) (h : d.pushDocument doc last = .ok (d', keys)) : ∃ sec, Appended d sec d' := by
  obtain ⟨⟨e, steps, keys'⟩, he, h⟩ := bind_eq_ok h
  obtain ⟨hgrown, hsteps⟩ := pushSteps_grown _ _ _ hd he
  generalize (doc.steps.getLast?.map (·.number)).getD 0 = number at h
  cases h
  have hsound := hgrown.sound.push (i := ⟨⟨doc.name, number, true⟩, last⟩) (hjumps _ _ _)
  have hsize := size_push ⟨⟨doc.name, number, true⟩, last⟩ e
  have hop := op?_push ⟨⟨doc.name, number, true⟩, last⟩ e
  have hsections : (e.push ⟨⟨doc.name, number, true⟩, last⟩).sections = d.sections :=
    hgrown.sections
  generalize e.push ⟨⟨doc.name, number, true⟩, last⟩ = f at *
  have hlonger : d.size < f.size := hsize ▸ Nat.lt_succ_of_le hgrown.size
  refine ⟨⟨⟨doc.name, d.size, f.size⟩, steps, [], []⟩, ?_, ?_, rfl, rfl, hlonger, ?_⟩
  · refine hsound.section ⟨fun e he => ?_, fun _ => nofun, fun _ => nofun⟩
      (hsound.names.skills.putNew hlonger)
    exact Nat.lt_trans (hsteps e he) (hsize ▸ Nat.lt_succ_self _)
  · exact congrArg (fun sections : Array Section => sections.push _) hsections
  · intro j op hj hend
    have hlt : j = e.size := by
      change j + 1 = f.size at hend
      omega
    change f.op? j = some op at hj
    rw [hop, if_pos hlt] at hj
    cases hj
    exact hlast

theorem pushDocument_laid {doc : SkillDocument} {last : Op} (hlast : last.Ends)
    (hjumps : ∀ size refs j, last.Jumps size refs j) {d d' : Draft} {keys : List String}
    (hd : d.Laid) (h : d.pushDocument doc last = .ok (d', keys)) : d'.Laid ∧ 0 < d'.size := by
  obtain ⟨sec, happended⟩ := pushDocument_appended hlast hjumps hd.sound h
  exact ⟨hd.appended happended, Nat.zero_lt_of_lt happended.longer⟩

/-- A property of drafts that taking up documents keeps, where the draft is laid out already. -/
theorem ofDocuments_keeps_laid {Q : Draft → Prop} {main : SkillDocument} {library : SkillLibrary}
    (hmain : ∀ d keys, empty.pushDocument main .finish = .ok (d, keys) → Q d)
    (hdoc : ∀ doc d d' keys, d.Sound → Q d →
      d.pushDocument doc (.stub (.endSkill doc.name)) = .ok (d', keys) → Q d')
    (hname : ∀ d name index, Q d → Q { d with skills := d.skills.putNew name index })
    {d : Draft} (h : ofDocuments main library = .ok d) : (d.Laid ∧ 0 < d.size) ∧ Q d := by
  refine ofDocuments_keeps (Q := fun d => (d.Laid ∧ 0 < d.size) ∧ Q d) ?_ ?_ ?_ h
  · intro d keys h
    exact ⟨pushDocument_laid .finish (fun _ _ _ => .of_eq_none rfl rfl) .empty h, hmain d keys h⟩
  · intro doc d d' keys hd h
    exact ⟨pushDocument_laid (.endSkill _) (fun _ _ _ => .of_eq_none rfl rfl) hd.1.1 h,
      hdoc doc d d' keys hd.1.1.sound hd.2 h⟩
  · intro d name index hd hindex
    refine ⟨⟨hd.1.1.skills (hd.1.1.sound.names.skills.putNew ?_), hd.1.2⟩, hname d name index hd.2⟩
    rcases hindex with rfl | ⟨key, hkey⟩
    · exact hd.1.2
    · exact hd.1.1.sound.names.skills.get? hkey

theorem ofDocuments_laid {main : SkillDocument} {library : SkillLibrary} {d : Draft}
    (h : ofDocuments main library = .ok d) : d.Laid ∧ 0 < d.size :=
  (ofDocuments_keeps_laid (Q := fun _ => True) (fun _ _ _ => trivial)
    (fun _ _ _ _ _ _ _ => trivial) (fun _ _ _ _ => trivial) h).1

end Draft

end Deskhand
