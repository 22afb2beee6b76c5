import Deskhand.Proofs.Linking

/-!
# Nesting

A sequence of instructions is well nested if it is the text of a tree of constructs (`Nest`):
conditions with one or two parts, loops, functions and skills, with jumps out of a loop where only
conditions stand between. The tree says which marks belong together, so it also says what the
instructions are once they are linked (`Nest.flat`). Linking a well-nested sequence succeeds and
turns the one into the other, wherever it stands (`Nest.links`).
-/

namespace Deskhand

/-! ## The instructions of a draft -/

namespace Draft

/-- What the instructions of a draft do, in order. -/
def ops (d : Draft) : List Op := d.instructions.toList.map (·.op)

theorem getElem?_ops (d : Draft) (j : Nat) : d.ops[j]? = d.op? j := by
  simp [ops, op?]

@[simp] theorem ops_push (i : Instruction) (d : Draft) : (d.push i).ops = d.ops ++ [i.op] := by
  simp [ops, push]

theorem modify_length_append {α : Type} (g : α → α) (front back : List α) (x : α) :
    (front ++ x :: back).modify front.length g = front ++ g x :: back := by
  induction front with
  | nil => rfl
  | cons y front ih => exact congrArg (y :: ·) ih

variable {d : Draft} {pre post : List Op} {op : Op} {index : Nat}

theorem op?_of_ops (h : d.ops = pre ++ op :: post) (hindex : index = pre.length) :
    d.op? index = some op := by
  rw [← getElem?_ops, h, hindex]
  simp

/-- Changing an instruction leaves those ahead of it and behind it alone. -/
theorem ops_modifyOp (f : Op → Op) (h : d.ops = pre ++ op :: post) (hindex : index = pre.length) :
    (d.modifyOp index f).ops = pre ++ f op :: post := by
  obtain ⟨front, rest, hxs, rfl, hrest⟩ := List.map_eq_append_iff.1 h
  obtain ⟨i, back, rfl, rfl, rfl⟩ := List.map_eq_cons_iff.1 hrest
  rw [List.length_map] at hindex
  subst hindex
  unfold ops Draft.modifyOp
  rw [Array.toList_modify, hxs, modify_length_append]
  simp

theorem ops_setOp (op' : Op) (h : d.ops = pre ++ op :: post) (hindex : index = pre.length) :
    (d.setOp index op').ops = pre ++ op' :: post := ops_modifyOp _ h hindex

end Draft

/-! ## Visits -/

namespace LinkState

/-- Breaks are noted in the innermost loop that is open. -/
def noteBreaks (indices : List Nat) : List Construct → List Construct
  | .loop start breaks :: rest => .loop start (breaks ++ indices) :: rest
  | .condition start orElse :: rest => .condition start orElse :: noteBreaks indices rest
  | constructs => constructs

/-- A loop is open, and only conditions in it. -/
def InLoop : List Construct → Prop
  | .loop _ _ :: _ => True
  | .condition _ _ :: rest => InLoop rest
  | _ => False

theorem addBreak_of_inLoop (index : Nat) {constructs : List Construct} (h : InLoop constructs) :
    addBreak index constructs = some (noteBreaks [index] constructs) := by
  induction constructs with
  | nil => cases h
  | cons c rest ih =>
    cases c with
    | condition start orElse => simp only [addBreak, ih h, noteBreaks, Option.map_some]
    | loop start breaks => rfl
    | function start => cases h
    | skill => cases h

@[simp] theorem noteBreaks_nil (constructs : List Construct) :
    noteBreaks [] constructs = constructs := by
  induction constructs with
  | nil => rfl
  | cons c rest ih =>
    cases c with
    | condition start orElse => simp only [noteBreaks, ih]
    | loop start breaks => simp only [noteBreaks, List.append_nil]
    | function start => rfl
    | skill => rfl

theorem noteBreaks_append (indices more : List Nat) (constructs : List Construct) :
    noteBreaks (indices ++ more) constructs = noteBreaks more (noteBreaks indices constructs) := by
  induction constructs with
  | nil => rfl
  | cons c rest ih =>
    cases c with
    | condition start orElse => simp only [noteBreaks, ih]
    | loop start breaks => simp only [noteBreaks, List.append_assoc]
    | function start => rfl
    | skill => rfl

theorem inLoop_noteBreaks (indices : List Nat) {constructs : List Construct}
    (h : InLoop constructs) : InLoop (noteBreaks indices constructs) := by
  induction constructs with
  | nil => cases h
  | cons c rest ih =>
    cases c with
    | condition start orElse => exact ih h
    | loop start breaks => trivial
    | function start => cases h
    | skill => cases h

/-- Visiting so many instructions from an index on leads from one state to another. -/
def Visits (document index size : Nat) (s s' : LinkState) : Prop :=
  ∀ n, visitFrom document index (size + n) s = visitFrom document (index + size) n s'

variable {document index size : Nat} {s s₁ s₂ s' : LinkState} {op : Op}

theorem Visits.refl : Visits document index 0 s s := fun n => by rw [Nat.zero_add]; rfl

theorem Visits.trans {size₁ size₂ : Nat} (h₁ : Visits document index size₁ s s₁)
    (h₂ : Visits document (index + size₁) size₂ s₁ s₂) :
    Visits document index (size₁ + size₂) s s₂ := by
  intro n
  rw [Nat.add_assoc, h₁, h₂, Nat.add_assoc]

theorem Visits.single (hop : s.draft.op? index = some op)
    (hv : s.visit document index op = .ok s') : Visits document index 1 s s' := by
  intro n
  obtain ⟨i, hi, rfl⟩ := Option.map_eq_some_iff.1 hop
  rw [Nat.add_comm, visitFrom, hi]
  change (s.visit document index i.op >>= _) = _
  rw [hv]
  rfl

/-- The head of a construct, its body and its closing mark. -/
theorem Visits.around (v₁ : Visits document index 1 s s₁)
    (v₂ : Visits document (index + 1) size s₁ s₂)
    (v₃ : Visits document (index + 1 + size) 1 s₂ s') : Visits document index (size + 2) s s' := by
  have h := v₁.trans (v₂.trans v₃)
  rwa [show 1 + (size + 1) = size + 2 by omega] at h

/-- The end of a condition without a second part. -/
theorem visit_endCondition_none (document : Nat) {start : Nat} {rest : List Construct}
    (hs : s.constructs = .condition start none :: rest) :
    s.visit document index (.stub .endCondition) =
      .ok { s with
        draft := ((s.draft.modifyOp start (setEnd (index + 1))).modifyOp start
          (setElse (index + 1))).setOp index (.goto (index + 1) none)
        constructs := rest } := by
  change s.linkEndCondition index = _
  unfold linkEndCondition
  rw [hs]

theorem visit_orElse (document : Nat) {start : Nat} {rest : List Construct}
    (hs : s.constructs = .condition start none :: rest) :
    s.visit document index (.stub .orElse) =
      .ok { s with
        draft := s.draft.modifyOp start (setElse (index + 1))
        constructs := .condition start (some index) :: rest } := by
  change s.linkElse index = _
  unfold linkElse
  rw [hs]

/-- The end of a condition with a second part. -/
theorem visit_endCondition_some (document : Nat) {start mark : Nat} {rest : List Construct}
    (hs : s.constructs = .condition start (some mark) :: rest) :
    s.visit document index (.stub .endCondition) =
      .ok { s with
        draft := ((s.draft.modifyOp start (setEnd (index + 1))).setOp mark
          (.goto (index + 1) none)).setOp index (.goto (index + 1) none)
        constructs := rest } := by
  change s.linkEndCondition index = _
  unfold linkEndCondition
  rw [hs]

theorem visit_endLoop (document : Nat) {start : Nat} {breaks : List Nat} {rest : List Construct}
    (hs : s.constructs = .loop start breaks :: rest) :
    s.visit document index (.stub .endLoop) =
      .ok { s with
        draft := breaks.foldl (fun d b => d.setOp b (.goto (index + 1) none))
          ((s.draft.modifyOp start (setStop (index + 1))).setOp index
            (.goto start ((s.draft.op? start).bind counted)))
        constructs := rest } := by
  change s.linkEndLoop index = _
  unfold linkEndLoop Draft.op?
  rw [hs, Option.bind_map]
  rfl

theorem visit_endFunction (document : Nat) {name : String} {start : Nat} {rest : List Construct}
    (hs : s.constructs = .function start :: rest) :
    s.visit document index (.stub (.endFunction name)) =
      .ok { s with
        draft := s.draft.setOp start (.goto (index + 1) none)
        constructs := rest } := by
  change s.linkEndFunction index = _
  unfold linkEndFunction
  rw [hs]

theorem visit_endSkill (document : Nat) (name : String) {rest : List Construct}
    (hs : s.constructs = .skill :: rest) :
    s.visit document index (.stub (.endSkill name)) = .ok { s with constructs := rest } := by
  change s.linkEndSkill = _
  unfold linkEndSkill
  rw [hs]

end LinkState

/-! ## Trees of constructs -/

/-- A tree of constructs. The flag says whether it stands in a loop with only conditions between. -/
inductive Nest : Bool → Type
  | skip {l : Bool} : Nest l
  | seq {l : Bool} (first second : Nest l) : Nest l
  | plain {l : Bool} (op : Op) (h : op.Passed) : Nest l
  | when {l : Bool} (condition : String) (ifElse ifEnd : Nat) (yes : Nest l) : Nest l
  | choose {l : Bool} (condition : String) (ifElse ifEnd : Nat) (yes no : Nest l) : Nest l
  | loop {l : Bool} (guard count counter : String) (stop : Nat) (body : Nest true) : Nest l
  | leave : Nest true
  | function {l : Bool} (name param closing : String) (body : Nest false) : Nest l
  | skill {l : Bool} (name closing : String) (body : Nest false) : Nest l

namespace Nest

variable {l : Bool}

/-- The number of instructions of a tree. -/
def size : {l : Bool} → Nest l → Nat
  | _, .skip => 0
  | _, .seq first second => first.size + second.size
  | _, .plain .. => 1
  | _, .when _ _ _ yes => yes.size + 2
  | _, .choose _ _ _ yes no => yes.size + no.size + 3
  | _, .loop _ _ _ _ body => body.size + 2
  | _, .leave => 1
  | _, .function _ _ _ body => body.size + 2
  | _, .skill _ _ body => body.size + 2

/-- The instructions of a tree before they are linked. -/
def raw : {l : Bool} → Nest l → List Op
  | _, .skip => []
  | _, .seq first second => first.raw ++ second.raw
  | _, .plain op _ => [op]
  | _, .when condition ifElse ifEnd yes =>
    .checkCondition condition ifElse ifEnd :: yes.raw ++ [.stub .endCondition]
  | _, .choose condition ifElse ifEnd yes no =>
    .checkCondition condition ifElse ifEnd :: yes.raw ++ .stub .orElse :: no.raw ++
      [.stub .endCondition]
  | _, .loop guard count counter stop body =>
    .loop guard count counter stop :: body.raw ++ [.stub .endLoop]
  | _, .leave => [.stub .breakLoop]
  | _, .function name param closing body =>
    .stub (.startFunction name param) :: body.raw ++ [.stub (.endFunction closing)]
  | _, .skill name closing body =>
    .stub (.startSkill name) :: body.raw ++ [.stub (.endSkill closing)]

/-- The instructions of a tree at a place after they are linked. The head of a construct goes behind
its parts, the end of a loop goes back to its head, and a jump out of a loop goes to where the loop
around the tree is left to; while that is not known it is a mark. -/
def flat : {l : Bool} → Nest l → (place : Nat) → (out : Option Nat) → List Op
  | _, .skip, _, _ => []
  | _, .seq first second, place, out =>
    first.flat place out ++ second.flat (place + first.size) out
  | _, .plain op _, _, _ => [op]
  | _, .when condition _ _ yes, place, out =>
    let behind := place + yes.size + 2
    .checkCondition condition behind behind :: yes.flat (place + 1) out ++ [.goto behind none]
  | _, .choose condition _ _ yes no, place, out =>
    let second := place + yes.size + 2
    let behind := second + no.size + 1
    .checkCondition condition second behind :: yes.flat (place + 1) out ++
      .goto behind none :: no.flat second out ++ [.goto behind none]
  | _, .loop guard count counter _ body, place, _ =>
    let behind := place + body.size + 2
    .loop guard count counter behind :: body.flat (place + 1) (some behind) ++
      [.goto place (if Text.isBlankText guard then some counter else none)]
  | _, .leave, _, out =>
    match out with
    | some target => [.goto target none]
    | none => [.stub .breakLoop]
  | _, .function _ _ closing body, place, _ =>
    .goto (place + body.size + 2) none :: body.flat (place + 1) none ++
      [.stub (.endFunction closing)]
  | _, .skill name closing body, place, _ =>
    .stub (.startSkill name) :: body.flat (place + 1) none ++ [.stub (.endSkill closing)]

/-- Where a tree at a place breaks out of the loop around it. -/
def breaks : {l : Bool} → Nest l → (place : Nat) → List Nat
  | _, .seq first second, place => first.breaks place ++ second.breaks (place + first.size)
  | _, .when _ _ _ yes, place => yes.breaks (place + 1)
  | _, .choose _ _ _ yes no, place => yes.breaks (place + 1) ++ no.breaks (place + yes.size + 2)
  | _, .leave, place => [place]
  | _, _, _ => []

@[simp] theorem length_raw (b : Nest l) : b.raw.length = b.size := by
  induction b with
  | seq first second ih₁ ih₂ => simp [raw, size, ih₁, ih₂]
  | choose condition ifElse ifEnd yes no ih₁ ih₂ =>
    simp [raw, size, ih₁, ih₂]
    omega
  | when condition ifElse ifEnd yes ih => simp [raw, size, ih]
  | loop guard count counter stop body ih => simp [raw, size, ih]
  | function name param closing body ih => simp [raw, size, ih]
  | skill name closing body ih => simp [raw, size, ih]
  | _ => rfl

@[simp] theorem length_flat (b : Nest l) (place : Nat) (out : Option Nat) :
    (b.flat place out).length = b.size := by
  induction b generalizing place out with
  | seq first second ih₁ ih₂ => simp [flat, size, ih₁, ih₂]
  | choose condition ifElse ifEnd yes no ih₁ ih₂ =>
    simp [flat, size, ih₁, ih₂]
    omega
  | when condition ifElse ifEnd yes ih => simp [flat, size, ih]
  | loop guard count counter stop body ih => simp [flat, size, ih]
  | function name param closing body ih => simp [flat, size, ih]
  | skill name closing body ih => simp [flat, size, ih]
  | leave => cases out <;> rfl
  | _ => rfl

/-! ## Linking a tree -/

open LinkState

variable {document : Nat}

/-- A tree has been visited: its instructions are linked up to its breaks, and these are noted. -/
structure Met (b : Nest l) (document index : Nat) (pre post : List Op) (s s' : LinkState) :
    Prop where
  visits : Visits document index b.size s s'
  ops : s'.draft.ops = pre ++ b.flat index none ++ post
  constructs : s'.constructs = noteBreaks (b.breaks index) s.constructs
  handler : s'.handler = s.handler

theorem Met.op?_behind {b : Nest l} {index : Nat} {pre post : List Op} {op : Op}
    {s s' : LinkState} (m : b.Met document index pre (op :: post) s s')
    (hindex : index = pre.length) : s'.draft.op? (index + b.size) = some op :=
  Draft.op?_of_ops m.ops (by simp [hindex])

/-- Linking meets a tree wherever it stands, if it breaks out of an open loop only. -/
def Links (document : Nat) (b : Nest l) : Prop :=
  ∀ (s : LinkState) (pre post : List Op) (index : Nat), index = pre.length →
    s.draft.ops = pre ++ b.raw ++ post → (l = true → InLoop s.constructs) →
    ∃ s', b.Met document index pre post s s'

theorem links_seq {first second : Nest l} (h₁ : first.Links document)
    (h₂ : second.Links document) : (seq first second).Links document := by
  intro s pre post index hindex hops hloop
  obtain ⟨s₁, m₁⟩ := h₁ s pre (second.raw ++ post) index hindex
    (hops.trans (by simp [raw])) hloop
  obtain ⟨s₂, m₂⟩ := h₂ s₁ (pre ++ first.flat index none) post (index + first.size)
    (by simp [hindex]) (by simpa using m₁.ops)
    (fun hl => m₁.constructs ▸ inLoop_noteBreaks _ (hloop hl))
  refine ⟨s₂, m₁.visits.trans m₂.visits, ?_, ?_, m₂.handler.trans m₁.handler⟩
  · simpa [flat] using m₂.ops
  · rw [m₂.constructs, m₁.constructs, ← noteBreaks_append]
    rfl

/-- What linking passes changes no instruction and opens and closes nothing. -/
theorem visit_passed {op : Op} (h : op.Passed) (document index : Nat) (s : LinkState) :
    ∃ s', s.visit document index op = .ok s' ∧ s'.draft.ops = s.draft.ops ∧
      s'.constructs = s.constructs ∧ s'.handler = s.handler := by
  cases op with
  | checkCondition | loop | exceptionHandler | endException => exact h.elim
  | stub kind =>
    cases kind with
    | tag name => exact ⟨_, rfl, rfl, rfl, rfl⟩
    | label text => exact ⟨s, rfl, rfl, rfl, rfl⟩
    | _ => exact h.elim
  | _ => exact ⟨s, rfl, rfl, rfl, rfl⟩

theorem links_plain {op : Op} (h : op.Passed) : (plain op h : Nest l).Links document := by
  intro s pre post index hindex hops _
  obtain ⟨s', hvisit, hops', hconstructs, hhandler⟩ := visit_passed h document index s
  have hop := Draft.op?_of_ops (hops.trans (List.append_assoc ..)) hindex
  refine ⟨s', .single hop hvisit, hops'.trans hops, ?_, hhandler⟩
  exact hconstructs.trans (noteBreaks_nil _).symm

theorem links_leave : leave.Links document := by
  intro s pre post index hindex hops hloop
  have hbreak := addBreak_of_inLoop index (hloop rfl)
  refine ⟨{ s with constructs := noteBreaks [index] s.constructs }, ?_, hops, rfl, rfl⟩
  refine .single (Draft.op?_of_ops (hops.trans (List.append_assoc ..)) hindex) ?_
  change s.linkBreak index = _
  unfold linkBreak
  rw [hbreak]

/-- The body of a construct is linked between its head and its closing mark. -/
theorem Links.inside {body : Nest l} (h : body.Links document) {s : LinkState}
    {pre rest : List Op} {head : Op} {index : Nat} (hindex : index = pre.length)
    (hops : s.draft.ops = pre ++ head :: (body.raw ++ rest))
    (hloop : l = true → InLoop s.constructs) :
    ∃ s', body.Met document (index + 1) (pre ++ [head]) rest s s' ∧
      s'.draft.ops = pre ++ head :: (body.flat (index + 1) none ++ rest) := by
  obtain ⟨s', m⟩ := h s (pre ++ [head]) rest (index + 1) (by simp [hindex])
    (hops.trans (by simp)) hloop
  exact ⟨s', m, m.ops.trans (by simp)⟩

theorem links_when {condition : String} {ifElse ifEnd : Nat} {yes : Nest l}
    (h : yes.Links document) : (when condition ifElse ifEnd yes).Links document := by
  intro s pre post index hindex hops hloop
  replace hops := hops.trans (by simp [raw] : _ = pre ++ .checkCondition condition ifElse ifEnd ::
    (yes.raw ++ .stub .endCondition :: post))
  have v₁ : Visits document index 1 s (s.enter (.condition index none)) :=
    .single (Draft.op?_of_ops hops hindex) rfl
  obtain ⟨s₂, m₂, hops₂⟩ := h.inside (s := s.enter (.condition index none)) hindex hops hloop
  have v₃ := Visits.single (m₂.op?_behind (by simp [hindex]))
    (visit_endCondition_none document m₂.constructs)
  rw [show index + 1 + yes.size + 1 = index + yes.size + 2 by omega] at v₃
  have hpatched := Draft.ops_modifyOp (setElse (index + yes.size + 2))
    (Draft.ops_modifyOp (setEnd (index + yes.size + 2)) hops₂ hindex) hindex
  have hclosed := Draft.ops_setOp (.goto (index + yes.size + 2) none)
    (hpatched.trans (List.append_assoc pre (_ :: _) (_ :: _)).symm)
    (show index + 1 + yes.size = _ by simp [hindex]; omega)
  exact ⟨_, v₁.around m₂.visits v₃, hclosed.trans (by simp [flat, setElse, setEnd]), rfl, m₂.handler⟩

theorem links_choose {condition : String} {ifElse ifEnd : Nat} {yes no : Nest l}
    (hyes : yes.Links document) (hno : no.Links document) :
    (choose condition ifElse ifEnd yes no).Links document := by
  intro s pre post index hindex hops hloop
  replace hops := hops.trans (by simp [raw] : _ = pre ++ .checkCondition condition ifElse ifEnd ::
    (yes.raw ++ (.stub .orElse :: (no.raw ++ .stub .endCondition :: post))))
  have v₁ : Visits document index 1 s (s.enter (.condition index none)) :=
    .single (Draft.op?_of_ops hops hindex) rfl
  obtain ⟨s₂, m₂, hops₂⟩ := hyes.inside (s := s.enter (.condition index none)) hindex hops hloop
  have v₃ := Visits.single (m₂.op?_behind (by simp [hindex]))
    (visit_orElse document m₂.constructs)
  rw [show index + 1 + yes.size + 1 = index + yes.size + 2 by omega] at v₃
  have hfirst := Draft.ops_modifyOp (setElse (index + yes.size + 2)) hops₂ hindex
  have hmark : index + 1 + yes.size = (pre ++ setElse (index + yes.size + 2)
      (.checkCondition condition ifElse ifEnd) :: yes.flat (index + 1) none).length := by
    simp [hindex]
    omega
  obtain ⟨s₄, m₄, hops₄⟩ := hno.inside (s := { s₂ with
      draft := s₂.draft.modifyOp index (setElse (index + yes.size + 2))
      constructs := .condition index (some (index + 1 + yes.size)) ::
        noteBreaks (yes.breaks (index + 1)) s.constructs }) hmark
    (hfirst.trans (List.append_assoc pre (_ :: _) (_ :: _)).symm)
    fun hl => inLoop_noteBreaks _ (hloop hl)
  rw [show index + 1 + yes.size + 1 = index + yes.size + 2 by omega] at m₄ hops₄
  have v₅ := Visits.single (m₄.op?_behind (by simp [hindex]; omega))
    (visit_endCondition_some document m₄.constructs)
  have hset := Draft.ops_modifyOp (setEnd (index + yes.size + 2 + no.size + 1))
    (hops₄.trans (List.append_assoc pre (_ :: _) (_ :: _))) hindex
  have hjump := Draft.ops_setOp (.goto (index + yes.size + 2 + no.size + 1) none)
    (hset.trans (List.append_assoc pre (_ :: _) (_ :: _)).symm)
    (show index + 1 + yes.size = _ by simp [hindex]; omega)
  have hclosed := Draft.ops_setOp (.goto (index + yes.size + 2 + no.size + 1) none)
    (hjump.trans (List.append_assoc (pre ++ _ :: _) (_ :: _) (_ :: _)).symm)
    (show index + yes.size + 2 + no.size = _ by simp [hindex]; omega)
  have hvisits := (v₁.around m₂.visits v₃).trans (m₄.visits.trans v₅)
  rw [show yes.size + 2 + (no.size + 1) = yes.size + no.size + 3 by omega] at hvisits
  refine ⟨_, hvisits, hclosed.trans (by simp [flat, setElse, setEnd]), ?_,
    m₄.handler.trans m₂.handler⟩
  exact (noteBreaks_append _ _ _).symm

theorem links_function {name param closing : String} {body : Nest false}
    (h : body.Links document) :
    (function name param closing body : Nest l).Links document := by
  intro s pre post index hindex hops _
  replace hops := hops.trans (by simp [raw] : _ = pre ++ .stub (.startFunction name param) ::
    (body.raw ++ .stub (.endFunction closing) :: post))
  have v₁ : Visits document index 1 s (s.linkStartFunction document index name param) :=
    .single (Draft.op?_of_ops hops hindex) rfl
  obtain ⟨s₂, m₂, hops₂⟩ := h.inside (s := s.linkStartFunction document index name param) hindex
    hops nofun
  have v₃ := Visits.single (m₂.op?_behind (by simp [hindex]))
    (visit_endFunction document m₂.constructs)
  rw [show index + 1 + body.size + 1 = index + body.size + 2 by omega] at v₃
  have hclosed := Draft.ops_setOp (.goto (index + body.size + 2) none) hops₂ hindex
  refine ⟨_, v₁.around m₂.visits v₃, hclosed.trans (by simp [flat]), ?_, m₂.handler⟩
  exact (noteBreaks_nil _).symm

theorem links_skill {name closing : String} {body : Nest false} (h : body.Links document) :
    (skill name closing body : Nest l).Links document := by
  intro s pre post index hindex hops _
  replace hops := hops.trans (by simp [raw] : _ = pre ++ .stub (.startSkill name) ::
    (body.raw ++ .stub (.endSkill closing) :: post))
  have v₁ : Visits document index 1 s (s.linkStartSkill document index name) :=
    .single (Draft.op?_of_ops hops hindex) rfl
  obtain ⟨s₂, m₂, hops₂⟩ := h.inside (s := s.linkStartSkill document index name) hindex hops nofun
  have v₃ := Visits.single (m₂.op?_behind (by simp [hindex]))
    (visit_endSkill document closing m₂.constructs)
  refine ⟨_, v₁.around m₂.visits v₃, hops₂.trans (by simp [flat]), ?_, m₂.handler⟩
  exact (noteBreaks_nil _).symm

/-- Once the place behind a loop is known, the breaks in its body jump there. -/
theorem ops_setBreaks (b : Nest l) (target : Nat) (d : Draft) (pre post : List Op) (index : Nat)
    (hindex : index = pre.length) (hops : d.ops = pre ++ b.flat index none ++ post) :
    ((b.breaks index).foldl (fun d k => d.setOp k (.goto target none)) d).ops =
      pre ++ b.flat index (some target) ++ post := by
  induction b generalizing d pre post index with
  | seq first second ih₁ ih₂ =>
    have h₁ := ih₁ d pre (second.flat (index + first.size) none ++ post) index hindex
      (hops.trans (by simp [flat]))
    have h₂ := ih₂ _ (pre ++ first.flat index (some target)) post (index + first.size)
      (by simp [hindex]) (h₁.trans (by simp))
    rw [breaks, List.foldl_append]
    exact h₂.trans (by simp [flat])
  | when condition ifElse ifEnd yes ih =>
    have h := ih d (pre ++ [.checkCondition condition (index + yes.size + 2) (index + yes.size + 2)])
      (.goto (index + yes.size + 2) none :: post) (index + 1) (by simp [hindex])
      (hops.trans (by simp [flat]))
    exact h.trans (by simp [flat])
  | choose condition ifElse ifEnd yes no ih₁ ih₂ =>
    let second := index + yes.size + 2
    let behind := second + no.size + 1
    let head := Op.checkCondition condition second behind
    have h₁ := ih₁ d (pre ++ [head]) (.goto behind none :: no.flat second none ++
      .goto behind none :: post) (index + 1) (by simp [hindex]) (hops.trans (by
        simp [flat, head, second, behind]))
    have h₂ := ih₂ _ (pre ++ head :: yes.flat (index + 1) (some target) ++ [.goto behind none])
      (.goto behind none :: post) second (by simp [hindex, second]; omega) (h₁.trans (by simp))
    rw [breaks, List.foldl_append]
    exact h₂.trans (by simp [flat, head, second, behind])
  | leave =>
    have h := Draft.ops_setOp (.goto target none) (hops.trans (List.append_assoc ..)) hindex
    exact h.trans (by simp [flat])
  | _ => exact hops

theorem links_loop {guard count counter : String} {stop : Nat} {body : Nest true}
    (h : body.Links document) :
    (loop guard count counter stop body : Nest l).Links document := by
  intro s pre post index hindex hops _
  replace hops := hops.trans (by simp [raw] : _ = pre ++ .loop guard count counter stop ::
    (body.raw ++ .stub .endLoop :: post))
  have v₁ : Visits document index 1 s (s.enter (.loop index [])) :=
    .single (Draft.op?_of_ops hops hindex) rfl
  obtain ⟨s₂, m₂, hops₂⟩ := h.inside (s := s.enter (.loop index [])) hindex hops fun _ => trivial
  have hcounter : (s₂.draft.op? index).bind counted =
      if Text.isBlankText guard then some counter else none := by
    rw [Draft.op?_of_ops hops₂ hindex]
    rfl
  have v₃ := Visits.single (m₂.op?_behind (by simp [hindex]))
    (visit_endLoop document m₂.constructs)
  rw [hcounter, show index + 1 + body.size + 1 = index + body.size + 2 by omega] at v₃
  have hstop := Draft.ops_modifyOp (setStop (index + body.size + 2)) hops₂ hindex
  have hback := Draft.ops_setOp
    (.goto index (if Text.isBlankText guard then some counter else none))
    (hstop.trans (List.append_assoc pre (_ :: _) (_ :: _)).symm)
    (show index + 1 + body.size = _ by simp [hindex]; omega)
  have hbreaks := ops_setBreaks body (index + body.size + 2) _
    (pre ++ [.loop guard count counter (index + body.size + 2)])
    (.goto index (if Text.isBlankText guard then some counter else none) :: post) (index + 1)
    (by simp [hindex]) (hback.trans (by simp [setStop]))
  refine ⟨_, v₁.around m₂.visits v₃, hbreaks.trans (by simp [flat]), ?_, m₂.handler⟩
  exact (noteBreaks_nil _).symm

/-- Linking meets every tree. -/
theorem links (document : Nat) (b : Nest l) : b.Links document := by
  induction b with
  | skip =>
    intro s pre post index _ hops _
    exact ⟨s, .refl, hops, (noteBreaks_nil _).symm, rfl⟩
  | seq first second ih₁ ih₂ => exact links_seq ih₁ ih₂
  | plain op h => exact links_plain h
  | when condition ifElse ifEnd yes ih => exact links_when ih
  | choose condition ifElse ifEnd yes no ih₁ ih₂ => exact links_choose ih₁ ih₂
  | loop guard count counter stop body ih => exact links_loop ih
  | leave => exact links_leave
  | function name param closing body ih => exact links_function ih
  | skill name closing body ih => exact links_skill ih

end Nest

end Deskhand
