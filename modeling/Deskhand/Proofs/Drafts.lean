import Deskhand.Program.Resolve
import Deskhand.Proofs.Fallible

/-!
# What resolving does to a draft

Linking visits the instructions of a document one by one, and what one visit can do is said once
(`LinkState.Visited`). Linking and looking references up change what instructions do by a few
patches only, so a property of operations that the patches keep holds of a whole resolved program if
it holds of the code of every step (`all_of_resolve`).
-/

namespace Deskhand

/-! ## Operations -/

/-- Whether a mark stands for a part of a construct, which linking turns into a jump. -/
def StubKind.isPart : StubKind → Bool
  | orElse | endCondition | endLoop | breakLoop | startFunction .. => true
  | _ => false

/-- Linking passes the operation: it is no part of a construct, and no exception is handled by it. -/
def Op.Passed : Op → Prop
  | checkCondition .. | loop .. | exceptionHandler .. | endException => False
  | stub (.tag _) | stub (.label _) => True
  | stub _ => False
  | _ => True

/-- The name of the tag that an operation is. -/
def Op.tagName? : Op → Option String
  | stub (.tag name) => some name
  | _ => none

/-- Where a jump or a call goes to. -/
def Op.jump? : Op → Option Nat
  | goto target _ => some target
  | callFunction _ entry _ _ _ => some entry
  | useSkill _ entry _ _ => some entry
  | overloadSkill _ entry _ _ => some entry
  | _ => none

/-! ## The code of a step -/

/-- The step types that have code of their own. -/
def controlStepTypes : List String :=
  ["Check Condition", "Repeat", "Goto", "Stub", "Call Function", "Return", "Use Skill",
    "Overload Skill", "Exception Handler", "End Exception"]

/-- The codes that a step can have. -/
inductive RawStep.Coded (s : RawStep) : StepCode → Prop
  | checkCondition (condition : String) :
    Coded s (.just (.checkCondition condition Program.sentinel Program.sentinel))
  | loop (guard count counter : String) :
    Coded s ⟨if Text.isBlankText guard then some (resetCounter counter) else none,
      .loop guard count counter Program.sentinel, none⟩
  | goto (text : String) : Coded s (.referring (.goto Program.sentinel none) (.label text))
  | stub (kind : StubKind) : Coded s (.just (.stub kind))
  | callFunction (name arg output : String) :
    Coded s (.referring (.callFunction name Program.sentinel "" arg output) (.function name))
  | giveBack (value : String) : Coded s (.just (.giveBack value))
  | useSkill (key arg output : String) :
    Coded s (.referring (.useSkill key Program.sentinel arg output) (.skill key))
  | overloadSkill (key arg output : String) :
    Coded s (.referring (.overloadSkill key Program.sentinel arg output) (.skill key))
  | exceptionHandler (args : HandlerArgs) :
    Coded s (.just (.exceptionHandler args Program.sentinel))
  | endException : Coded s (.just .endException)
  | action (h : s.kind ∉ controlStepTypes) : Coded s (.just (.action s.kind s.fields))

theorem coded_loop {document : Nat} {s : RawStep} {c : StepCode}
    (h : s.loopCode document = .ok c) : s.Coded c := by
  obtain ⟨r, -, h⟩ := bind_eq_ok h
  dsimp only at h
  have hloop := RawStep.Coded.loop (s := s) (r.text "until") (r.text "count")
    (s.counterName document (r.text "lc_name"))
  cases hguard : Text.isBlankText (r.text "until") with
  | false =>
    rw [hguard] at h hloop
    cases h
    exact hloop
  | true =>
    rw [hguard] at h hloop
    rw [if_neg (by decide)] at h
    split at h
    · cases h
    · cases h
      exact hloop

theorem coded {document : Nat} {s : RawStep} {c : StepCode} (h : s.code document = .ok c) :
    s.Coded c := by
  unfold RawStep.code at h
  split at h
  case h_2 => exact coded_loop h
  case h_10 =>
    cases h
    exact .endException
  case h_11 =>
    cases h
    refine .action ?_
    simp only [controlStepTypes, List.mem_cons, List.not_mem_nil, or_false, not_or]
    exact ⟨‹_›, ‹_›, ‹_›, ‹_›, ‹_›, ‹_›, ‹_›, ‹_›, ‹_›, ‹_›⟩
  all_goals
    obtain ⟨r, -, h⟩ := bind_eq_ok h
    cases h
    constructor

namespace Draft

/-! ## The operations of a draft -/

/-- What the instruction at an index does. -/
def op? (j : Nat) (d : Draft) : Option Op := d.instructions[j]?.map (·.op)

theorem op?_eq_none {j : Nat} {d : Draft} : d.op? j = none ↔ d.size ≤ j := by
  simp [op?, size]

theorem lt_size_of_op? {j : Nat} {op : Op} {d : Draft} (h : d.op? j = some op) : j < d.size := by
  rcases Nat.lt_or_ge j d.size with hj | hj
  · exact hj
  · rw [op?_eq_none.2 hj] at h
    cases h

@[simp] theorem size_push (i : Instruction) (d : Draft) : (d.push i).size = d.size + 1 :=
  Array.size_push i

theorem op?_push (i : Instruction) (d : Draft) (j : Nat) :
    (d.push i).op? j = if j = d.size then some i.op else d.op? j := by
  unfold op? push size
  rw [Array.getElem?_push]
  split <;> rfl

@[simp] theorem size_modifyOp (k : Nat) (f : Op → Op) (d : Draft) :
    (d.modifyOp k f).size = d.size := Array.size_modify

theorem op?_modifyOp (k : Nat) (f : Op → Op) (d : Draft) (j : Nat) :
    (d.modifyOp k f).op? j = if k = j then (d.op? j).map f else d.op? j := by
  unfold op? modifyOp
  rw [Array.getElem?_modify]
  split
  · cases d.instructions[j]? <;> rfl
  · rfl

@[simp] theorem size_setOp (k : Nat) (op : Op) (d : Draft) : (d.setOp k op).size = d.size :=
  size_modifyOp k _ d

/-- Every instruction has a property, which may depend on its index. -/
def All (P : Nat → Op → Prop) (d : Draft) : Prop := ∀ j op, d.op? j = some op → P j op

namespace All

variable {P : Nat → Op → Prop} {d : Draft}

theorem empty : Draft.empty.All P := by
  intro j op hj
  cases hj

theorem push {i : Instruction} (h : d.All P) (hi : P d.size i.op) : (d.push i).All P := by
  intro j op hj
  rw [op?_push] at hj
  split at hj
  · next he =>
    cases hj
    exact he ▸ hi
  · exact h j op hj

/-- Changing one instruction may turn one property into another. -/
theorem modifyOp_to {Q : Nat → Op → Prop} {k : Nat} {f : Op → Op} (h : d.All P)
    (hother : ∀ j op, j ≠ k → P j op → Q j op) (hf : ∀ op, P k op → Q k (f op)) :
    (d.modifyOp k f).All Q := by
  intro j op hj
  rw [op?_modifyOp] at hj
  split at hj
  · next he =>
    subst he
    obtain ⟨old, hold, rfl⟩ := Option.map_eq_some_iff.1 hj
    exact hf old (h k old hold)
  · next hne => exact hother j op (Ne.symm hne) (h j op hj)

theorem modifyOp {k : Nat} {f : Op → Op} (h : d.All P) (hf : ∀ op, P k op → P k (f op)) :
    (d.modifyOp k f).All P := h.modifyOp_to (fun _ _ _ hp => hp) hf

theorem setOp_to {Q : Nat → Op → Prop} {k : Nat} {op : Op} (h : d.All P)
    (hother : ∀ j op, j ≠ k → P j op → Q j op) (hop : Q k op) : (d.setOp k op).All Q :=
  h.modifyOp_to hother fun _ _ => hop

theorem setOp {k : Nat} {op : Op} (h : d.All P) (hop : P k op) : (d.setOp k op).All P :=
  h.modifyOp fun _ _ => hop

end All

end Draft

namespace LinkState

open Draft

/-! ## One visit -/

/-- What visiting an instruction does to the state of linking. -/
inductive Visited (document index : Nat) (s : LinkState) : Op → LinkState → Prop
  | condition (condition : String) (ifElse ifEnd : Nat) :
    Visited document index s (.checkCondition condition ifElse ifEnd)
      (s.enter (.condition index none))
  | loop (guard count counter : String) (stop : Nat) :
    Visited document index s (.loop guard count counter stop) (s.enter (.loop index []))
  | orElse {start : Nat} {rest : List Construct}
    (h : s.constructs = .condition start none :: rest) :
    Visited document index s (.stub .orElse) { s with
      draft := s.draft.modifyOp start (setElse (index + 1))
      constructs := .condition start (some index) :: rest }
  | endWhen {start : Nat} {rest : List Construct}
    (h : s.constructs = .condition start none :: rest) :
    Visited document index s (.stub .endCondition) { s with
      draft := ((s.draft.modifyOp start (setEnd (index + 1))).modifyOp start
        (setElse (index + 1))).setOp index (.goto (index + 1) none)
      constructs := rest }
  | endChoose {start mark : Nat} {rest : List Construct}
    (h : s.constructs = .condition start (some mark) :: rest) :
    Visited document index s (.stub .endCondition) { s with
      draft := ((s.draft.modifyOp start (setEnd (index + 1))).setOp mark
        (.goto (index + 1) none)).setOp index (.goto (index + 1) none)
      constructs := rest }
  | breakLoop {constructs : List Construct} (h : addBreak index s.constructs = some constructs) :
    Visited document index s (.stub .breakLoop) { s with constructs }
  | endLoop {start : Nat} {breaks : List Nat} {rest : List Construct} (increment : Option String)
    (h : s.constructs = .loop start breaks :: rest) :
    Visited document index s (.stub .endLoop) { s with
      draft := breaks.foldl (fun d b => d.setOp b (.goto (index + 1) none))
        ((s.draft.modifyOp start (setStop (index + 1))).setOp index (.goto start increment))
      constructs := rest }
  | startFunction (name param : String) :
    Visited document index s (.stub (.startFunction name param))
      (s.linkStartFunction document index name param)
  | endFunction (name : String) {start : Nat} {rest : List Construct}
    (h : s.constructs = .function start :: rest) :
    Visited document index s (.stub (.endFunction name)) { s with
      draft := s.draft.setOp start (.goto (index + 1) none)
      constructs := rest }
  | startSkill (name : String) :
    Visited document index s (.stub (.startSkill name)) (s.linkStartSkill document index name)
  | endSkill (name : String) {rest : List Construct} (h : s.constructs = .skill :: rest) :
    Visited document index s (.stub (.endSkill name)) { s with constructs := rest }
  | strayEnd (name : String) (h : s.constructs = []) :
    Visited document index s (.stub (.endSkill name)) s
  | handler (args : HandlerArgs) (stop : Nat) :
    Visited document index s (.exceptionHandler args stop) { s with handler := some index }
  | endException {start : Nat} (h : s.handler = some start) :
    Visited document index s .endException { s with
      draft := s.draft.modifyOp start (setStop (index + 1))
      handler := none }
  | tag (name : String) :
    Visited document index s (.stub (.tag name)) { s with
      draft := s.draft.modifySection document fun sec =>
        { sec with tags := sec.tags.put name index } }
  | other (op : Op) (h : op.Passed) (htag : op.tagName? = none) : Visited document index s op s

variable {document index : Nat} {op : Op} {s s' : LinkState}

theorem unmatched_ne {stub : String} : s.unmatched stub index ≠ .ok s' := by
  intro h
  cases h

theorem linkEndSkill_cases (h : s.linkEndSkill = .ok s') :
    (∃ rest, s.constructs = .skill :: rest ∧ s' = { s with constructs := rest }) ∨
      s.constructs = [] ∧ s' = s := by
  unfold linkEndSkill at h
  cases hc : s.constructs with
  | nil =>
    rw [hc] at h
    cases h
    exact .inr ⟨rfl, rfl⟩
  | cons c rest =>
    rw [hc] at h
    cases c with
    | skill =>
      cases h
      exact .inl ⟨rest, rfl, rfl⟩
    | _ => cases h

theorem visited (h : s.visit document index op = .ok s') : s.Visited document index op s' := by
  unfold visit at h
  split at h
  · cases h
    exact .condition ..
  · cases h
    exact .loop ..
  · unfold linkElse at h
    split at h
    · next hc =>
      cases h
      exact .orElse hc
    · exact absurd h unmatched_ne
  · unfold linkEndCondition at h
    split at h
    · next start orElse rest hc =>
      cases h
      cases orElse with
      | none => exact .endWhen hc
      | some mark => exact .endChoose hc
    · exact absurd h unmatched_ne
  · unfold linkBreak at h
    split at h
    · next hc =>
      cases h
      exact .breakLoop hc
    · exact absurd h unmatched_ne
  · unfold linkEndLoop at h
    split at h
    · next hc =>
      cases h
      exact .endLoop _ hc
    · exact absurd h unmatched_ne
  · cases h
    exact .startFunction ..
  · unfold linkEndFunction at h
    split at h
    · next hc =>
      cases h
      exact .endFunction _ hc
    · exact absurd h unmatched_ne
  · cases h
    exact .startSkill ..
  · rcases linkEndSkill_cases h with ⟨rest, hc, rfl⟩ | ⟨hc, rfl⟩
    · exact .endSkill _ hc
    · exact .strayEnd _ hc
  · cases h
    exact .handler ..
  · unfold linkEndException at h
    split at h
    · next hc =>
      cases h
      exact .endException hc
    · exact absurd h unmatched_ne
  · cases h
    exact .tag _
  · next hcond hloop horElse hend hbreak hendLoop hfun hendFun hskill hendSkill hhandler hendExc htag =>
    cases h
    cases op with
    | checkCondition condition ifElse ifEnd => exact (hcond _ _ _ rfl).elim
    | loop guard count counter stop => exact (hloop _ _ _ _ rfl).elim
    | exceptionHandler args stop => exact (hhandler _ _ rfl).elim
    | endException => exact (hendExc rfl).elim
    | stub kind =>
      cases kind with
      | orElse => exact (horElse rfl).elim
      | endCondition => exact (hend rfl).elim
      | breakLoop => exact (hbreak rfl).elim
      | endLoop => exact (hendLoop rfl).elim
      | startFunction name param => exact (hfun name param rfl).elim
      | endFunction name => exact (hendFun name rfl).elim
      | startSkill name => exact (hskill name rfl).elim
      | endSkill name => exact (hendSkill name rfl).elim
      | tag name => exact (htag name rfl).elim
      | label => exact .other _ trivial rfl
    | _ => exact .other _ trivial rfl

/-! ## Properties of operations that linking keeps -/

/-- A property of operations that linking keeps, as long as the targets it sets are good. -/
structure Patched (good : Nat → Prop) (P : Nat → Op → Prop) : Prop where
  goto : ∀ {j target} increment, good target → P j (.goto target increment)
  setElse : ∀ {j target op}, good target → P j op → P j (setElse target op)
  setEnd : ∀ {j target op}, good target → P j op → P j (setEnd target op)
  setStop : ∀ {j target op}, good target → P j op → P j (setStop target op)

section Patched

variable {good : Nat → Prop} {P : Nat → Op → Prop}

theorem all_foldl_setOp (hP : Patched good P) {target : Nat} (ht : good target)
    (breaks : List Nat) {d : Draft} (h : d.All P) :
    (breaks.foldl (fun d b => d.setOp b (.goto target none)) d).All P := by
  induction breaks generalizing d with
  | nil => exact h
  | cons b breaks ih => exact ih (h.setOp (hP.goto none ht))

/-- One visit keeps a property, if the next index and the beginning of the innermost loop are
good. -/
theorem Visited.all (hP : Patched good P) (hnext : good (index + 1))
    (hloop : ∀ start breaks rest, s.constructs = .loop start breaks :: rest → good start)
    (hv : s.Visited document index op s') (h : s.draft.All P) : s'.draft.All P := by
  cases hv with
  | orElse _ => exact h.modifyOp fun _ => hP.setElse hnext
  | endWhen _ =>
    exact ((h.modifyOp fun _ => hP.setEnd hnext).modifyOp fun _ => hP.setElse hnext).setOp
      (hP.goto none hnext)
  | endChoose _ =>
    exact ((h.modifyOp fun _ => hP.setEnd hnext).setOp (hP.goto none hnext)).setOp
      (hP.goto none hnext)
  | endLoop increment hc =>
    exact all_foldl_setOp hP hnext _ ((h.modifyOp fun _ => hP.setStop hnext).setOp
      (hP.goto increment (hloop _ _ _ hc)))
  | endFunction _ _ => exact h.setOp (hP.goto none hnext)
  | endException _ => exact h.modifyOp fun _ => hP.setStop hnext
  | _ => exact h

end Patched

theorem visitFrom_keeps {I : LinkState → Prop}
    (hI : ∀ index op s s', I s → s.Visited document index op s' → I s') (index n : Nat)
    {s s' : LinkState} (hs : I s) (h : visitFrom document index n s = .ok s') : I s' := by
  induction n generalizing index s with
  | zero =>
    cases h
    exact hs
  | succ n ih =>
    unfold visitFrom at h
    split at h
    · cases h
      exact hs
    · next i _ =>
      obtain ⟨s₁, h₁, h⟩ := bind_eq_ok h
      exact ih (index + 1) (hI index i.op s s₁ hs (visited h₁)) h

theorem close_eq {d : Draft} (h : s.close = .ok d) : d = s.draft := by
  unfold close at h
  split at h
  · cases h
  · split at h
    · cases h
    · cases h
      rfl

end LinkState

namespace Draft

/-! ## Whole passes -/

theorem link_all {P : Nat → Op → Prop} (hP : LinkState.Patched (fun _ => True) P) {d d' : Draft}
    (hd : d.All P) (h : d.link = .ok d') : d'.All P := by
  refine foldlM_keeps (fun document d d' hd h => ?_) hd h
  unfold linkDocument at h
  split at h
  · cases h
    exact hd
  · obtain ⟨s, hs, h⟩ := bind_eq_ok h
    rw [LinkState.close_eq h]
    exact LinkState.visitFrom_keeps (fun index op s s' hs hv => hv.all hP trivial
      (fun _ _ _ _ => trivial) hs) _ _ hd hs

/-- The three ways a reference is settled. -/
inductive Settling (d : Draft) (r : OpenReference) : Draft → Prop
  | label {text : String} {target : Nat} (hr : r.refers = .label text)
    (ht : d.labelTarget? r.document text = some target) :
    Settling d r (d.setOp r.index (.goto target none))
  | function {name param : String} {target : Nat} (hr : r.refers = .function name)
    (ht : d.lookUp r.document (fun sec => sec.functions.get? name) = some (target, param)) :
    Settling d r (d.modifyOp r.index (setFunction target param))
  | skill {key : String} {target : Nat} (hr : r.refers = .skill key)
    (ht : d.skills.get? key = some target) :
    Settling d r (d.modifyOp r.index (setSkill target))

theorem settling {d d' : Draft} {r : OpenReference} (h : d.settle r = .ok d') :
    d.Settling r d' := by
  unfold settle at h
  split at h
  · next hr =>
    split at h
    · next ht =>
      cases h
      exact .label hr ht
    · cases h
  · next hr =>
    split at h
    · next ht =>
      cases h
      exact .function hr ht
    · cases h
  · next hr =>
    split at h
    · next ht =>
      cases h
      exact .skill hr ht
    · cases h

/-- A property of drafts that taking up documents and naming their beginnings keep. -/
theorem ofDocuments_keeps {Q : Draft → Prop} {main : SkillDocument} {library : SkillLibrary}
    (hmain : ∀ d keys, empty.pushDocument main .finish = .ok (d, keys) → Q d)
    (hdoc : ∀ doc d d' keys, Q d → d.pushDocument doc (.stub (.endSkill doc.name)) = .ok (d', keys) →
      Q d')
    (hname : ∀ d name index, Q d → index = 0 ∨ (∃ key, d.skills.get? key = some index) →
      Q { d with skills := d.skills.putNew name index })
    {d : Draft} (h : ofDocuments main library = .ok d) : Q d := by
  have hcalled : ∀ fuel seen queue d d', Q d → pushCalled library fuel seen queue d = .ok d' →
      Q d' := by
    intro fuel
    induction fuel with
    | zero =>
      intro seen queue d d' hd h
      cases h
      exact hd
    | succ fuel ih =>
      intro seen queue d d' hd h
      unfold pushCalled at h
      split at h
      · cases h
        exact hd
      · next key queue _ =>
        split at h
        · cases h
        · next doc _ =>
          obtain ⟨⟨d₁, keys⟩, h₁, h⟩ := bind_eq_ok h
          refine ih _ _ _ _ (hname d₁ key _ (hdoc doc d d₁ keys hd h₁) ?_) h
          cases hk : d₁.skills.get? doc.name with
          | none => exact .inl rfl
          | some entry => exact .inr ⟨doc.name, hk⟩
  unfold ofDocuments at h
  obtain ⟨⟨d₁, keys⟩, h₁, h⟩ := bind_eq_ok h
  refine hcalled _ _ _ _ _ ?_ h
  split
  · exact hmain d₁ keys h₁
  · exact hname d₁ _ 0 (hmain d₁ keys h₁) (.inl rfl)

/-! ## Taking up the code of a step -/

/-- The instruction ahead of a step, if its code has one. -/
def setUp (name : String) (number : Nat) (c : StepCode) (d : Draft) : Draft :=
  match c.setup with
  | some op => d.push ⟨⟨name, number, true⟩, op⟩
  | none => d

/-- The code of a step is taken up with its reference and, if it is a handler, with its name. -/
theorem pushCode_eq (name : String) (document number : Nat) (c : StepCode) (d : Draft) :
    ∃ refs handlers, d.pushCode name document number c =
        { (d.setUp name number c).push ⟨⟨name, number, false⟩, c.op⟩ with
          references := refs, handlers } ∧
      (c.refers = none ∧ refs = (d.setUp name number c).references ∨ ∃ refers,
        c.refers = some refers ∧ refs = (d.setUp name number c).references ++
          [⟨(d.setUp name number c).size, document, refers⟩]) ∧
      (handlers = (d.setUp name number c).handlers ∨ handlers =
        (d.setUp name number c).handlers.putNew name (d.setUp name number c).size) := by
  obtain ⟨setup, op, refers⟩ := c
  cases refers with
  | none =>
    cases op with
    | exceptionHandler args stop => exact ⟨_, _, rfl, .inl ⟨rfl, rfl⟩, .inr rfl⟩
    | _ => exact ⟨_, _, rfl, .inl ⟨rfl, rfl⟩, .inl rfl⟩
  | some refers =>
    cases op with
    | exceptionHandler args stop => exact ⟨_, _, rfl, .inr ⟨refers, rfl, rfl⟩, .inr rfl⟩
    | _ => exact ⟨_, _, rfl, .inr ⟨refers, rfl, rfl⟩, .inl rfl⟩

section Code

variable {P : Op → Prop}

theorem pushCode_all {d : Draft} (hd : d.All fun _ => P) (name : String) (document number : Nat)
    {c : StepCode} (hsetup : ∀ op ∈ c.setup, P op) (hop : P c.op) :
    (d.pushCode name document number c).All fun _ => P := by
  obtain ⟨refs, handlers, heq, -, -⟩ := pushCode_eq name document number c d
  have hfirst : (d.setUp name number c).All fun _ => P := by
    unfold setUp
    split
    · next op h => exact hd.push (hsetup op (by rw [h]; rfl))
    · exact hd
  rw [heq]
  exact hfirst.push (i := ⟨⟨name, number, false⟩, c.op⟩) hop

theorem pushSteps_all (hcode : ∀ document s c, RawStep.code document s = .ok c →
      (∀ op ∈ c.setup, P op) ∧ P c.op) (name : String) (document : Nat) (steps : List RawStep)
    {d d' : Draft} {table : List (Nat × Nat)} {keys : List String} (hd : d.All fun _ => P)
    (h : pushSteps name document steps d = .ok (d', table, keys)) : d'.All fun _ => P := by
  induction steps generalizing d d' table keys with
  | nil =>
    cases h
    exact hd
  | cons s rest ih =>
    obtain ⟨c, hc, h⟩ := bind_eq_ok h
    obtain ⟨⟨after, steps, keys'⟩, hrest, h⟩ := bind_eq_ok h
    cases h
    obtain ⟨hsetup, hop⟩ := hcode document s c hc
    exact ih (pushCode_all hd name document s.number hsetup hop) hrest

theorem pushDocument_all (hcode : ∀ document s c, RawStep.code document s = .ok c →
      (∀ op ∈ c.setup, P op) ∧ P c.op) {doc : SkillDocument} {last : Op} (hlast : P last)
    {d d' : Draft} {keys : List String} (hd : d.All fun _ => P)
    (h : d.pushDocument doc last = .ok (d', keys)) : d'.All fun _ => P := by
  obtain ⟨⟨d₁, steps, keys'⟩, h₁, h⟩ := bind_eq_ok h
  cases h
  exact (pushSteps_all hcode doc.name d.sections.size doc.steps hd h₁).push hlast

end Code

end Draft

theorem resolve_eq_ok {main : SkillDocument} {library : SkillLibrary} {p : Program}
    (h : resolve main library = .ok p) : ∃ d₁ d₂ d₃, Draft.ofDocuments main library = .ok d₁ ∧
      d₁.link = .ok d₂ ∧ d₂.references.foldlM Draft.settle d₂ = .ok d₃ ∧ p = d₃.finish main := by
  obtain ⟨d₁, h₁, h⟩ := bind_eq_ok h
  obtain ⟨d₂, h₂, h⟩ := bind_eq_ok h
  obtain ⟨d₃, h₃, h⟩ := bind_eq_ok h
  cases h
  exact ⟨d₁, d₂, d₃, h₁, h₂, h₃, rfl⟩

theorem Entries.sorted_of_pairwise {α : Type} {es : Entries α}
    (h : es.Pairwise fun a b => decide (a.1 ≤ b.1) = true) : es.sorted = es :=
  List.mergeSort_of_pairwise h

/-- Sorting its tables does not change a program whose tables are in order. -/
theorem resolve_of_sorted {main : SkillDocument} {library : SkillLibrary} {p : Program}
    (h : resolve main library = .ok { p with
      functions := p.functions.sorted
      skills := p.skills.sorted
      handlers := p.handlers.sorted })
    (hfunctions : p.functions.Pairwise fun a b => decide (a.1 ≤ b.1) = true)
    (hskills : p.skills.Pairwise fun a b => decide (a.1 ≤ b.1) = true)
    (hhandlers : p.handlers.Pairwise fun a b => decide (a.1 ≤ b.1) = true) :
    resolve main library = .ok p := by
  rwa [Entries.sorted_of_pairwise hfunctions, Entries.sorted_of_pairwise hskills,
    Entries.sorted_of_pairwise hhandlers] at h

/-- A property of operations holds of a resolved program if it holds of the code of steps and of the
ends of documents, and if linking and looking references up keep it. -/
theorem all_of_resolve {P : Op → Prop} (hP : LinkState.Patched (fun _ => True) fun _ => P)
    (hfunction : ∀ target param op, P op → P (Draft.setFunction target param op))
    (hskill : ∀ target op, P op → P (Draft.setSkill target op))
    (hcode : ∀ document s c, RawStep.code document s = .ok c → (∀ op ∈ c.setup, P op) ∧ P c.op)
    (hfinish : P .finish) (hend : ∀ name, P (.stub (.endSkill name))) {main : SkillDocument}
    {library : SkillLibrary} {p : Program} (h : resolve main library = .ok p)
    {i : Instruction} (hi : i ∈ p.instructions) : P i.op := by
  obtain ⟨d₁, d₂, d₃, h₁, h₂, h₃, rfl⟩ := resolve_eq_ok h
  have hd₁ : d₁.All fun _ => P := Draft.ofDocuments_keeps
    (fun d keys h => Draft.pushDocument_all hcode hfinish Draft.All.empty h)
    (fun doc d d' keys hd h => Draft.pushDocument_all hcode (hend _) hd h)
    (fun d name index hd _ => hd) h₁
  have hd₃ : d₃.All fun _ => P := by
    refine foldlM_keeps (fun r d d' hd h => ?_) (Draft.link_all hP hd₁ h₂) h₃
    cases Draft.settling h with
    | label hr ht => exact hd.setOp (hP.goto (j := r.index) none trivial)
    | function hr ht => exact hd.modifyOp (hfunction _ _)
    | skill hr ht => exact hd.modifyOp (hskill _)
  obtain ⟨j, hj⟩ := Array.getElem?_of_mem hi
  exact hd₃ j i.op (congrArg (Option.map Instruction.op) hj)

end Deskhand
