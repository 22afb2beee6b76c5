import Deskhand.Proofs.Nesting

/-!
# Well-nested documents

A document is well nested if it is the text of trees of constructs with beginnings and ends of
skills between them (`Piece`). The linker keeps a stack of open constructs, and what it has read is
always the text of complete trees around the beginnings of the constructs on the stack (`Opened`).
So it accepts the well-nested documents and no others (`linkDocument_wellNested`).
-/

namespace Deskhand

/-- What stands outside all constructs: a tree, or the beginning or the end of a skill. -/
inductive Piece where
  | nest (b : Nest false)
  | startSkill (name : String)
  | endSkill (name : String)

namespace Piece

def size : Piece → Nat
  | nest b => b.size
  | _ => 1

/-- The instructions of a piece before they are linked. -/
def raw : Piece → List Op
  | nest b => b.raw
  | startSkill name => [.stub (.startSkill name)]
  | endSkill name => [.stub (.endSkill name)]

/-- The instructions of a piece at a place after they are linked. -/
def flat : Piece → (place : Nat) → List Op
  | nest b, place => b.flat place none
  | startSkill name, _ => [.stub (.startSkill name)]
  | endSkill name, _ => [.stub (.endSkill name)]

def rawAll (pieces : List Piece) : List Op := pieces.flatMap raw

def flatAll : List Piece → (place : Nat) → List Op
  | [], _ => []
  | p :: rest, place => p.flat place ++ flatAll rest (place + p.size)

@[simp] theorem length_raw (p : Piece) : p.raw.length = p.size := by
  cases p with
  | nest b => exact b.length_raw
  | _ => rfl

@[simp] theorem length_flat (p : Piece) (place : Nat) : (p.flat place).length = p.size := by
  cases p with
  | nest b => exact b.length_flat place none
  | _ => rfl

@[simp] theorem rawAll_nil : rawAll [] = [] := rfl

@[simp] theorem rawAll_cons (p : Piece) (rest : List Piece) :
    rawAll (p :: rest) = p.raw ++ rawAll rest := List.flatMap_cons

@[simp] theorem rawAll_append (pieces more : List Piece) :
    rawAll (pieces ++ more) = rawAll pieces ++ rawAll more := List.flatMap_append

@[simp] theorem length_flatAll (pieces : List Piece) (place : Nat) :
    (flatAll pieces place).length = (rawAll pieces).length := by
  induction pieces generalizing place with
  | nil => rfl
  | cons p rest ih => simp [flatAll, ih]

end Piece

/-- The operation handles no exception. -/
def Op.Unexceptional : Op → Prop
  | exceptionHandler .. | endException => False
  | _ => True

/-- The faults of a document that is not well nested. -/
def SkillFault.OfNesting : SkillFault → Prop
  | unmatchedStub .. | unclosedConstruct .. => True
  | _ => False

/-- The construct knows of instructions ahead of an index only. -/
def Construct.Behind (index : Nat) : Construct → Prop
  | condition start orElse => start < index ∧ ∀ mark, orElse = some mark → mark < index
  | loop start breaks => start < index ∧ ∀ b ∈ breaks, b < index
  | function start => start < index
  | skill => True

theorem Construct.Behind.succ {index : Nat} {c : Construct} (h : c.Behind index) :
    c.Behind (index + 1) := by
  cases c with
  | condition start orElse =>
    exact ⟨Nat.lt_succ_of_lt h.1, fun mark hmark => Nat.lt_succ_of_lt (h.2 mark hmark)⟩
  | loop start breaks =>
    exact ⟨Nat.lt_succ_of_lt h.1, fun b hb => Nat.lt_succ_of_lt (h.2 b hb)⟩
  | function start => exact Nat.lt_succ_of_lt h
  | skill => trivial

namespace LinkState

variable {document index : Nat} {s s' : LinkState} {op : Op}

/-- Nothing but skills is open. -/
def OnlySkills (constructs : List Construct) : Prop := ∀ c ∈ constructs, c = .skill

theorem noteBreaks_of_onlySkills (indices : List Nat) {constructs : List Construct}
    (h : OnlySkills constructs) : noteBreaks indices constructs = constructs := by
  cases constructs with
  | nil => rfl
  | cons c rest =>
    obtain rfl := h c List.mem_cons_self
    rfl

/-! ## Well-nested documents are accepted -/

theorem links_piece (p : Piece) {pre post : List Op} (hindex : index = pre.length)
    (hops : s.draft.ops = pre ++ p.raw ++ post) (hskills : OnlySkills s.constructs) :
    ∃ s', Visits document index p.size s s' ∧ s'.draft.ops = pre ++ p.flat index ++ post ∧
      OnlySkills s'.constructs ∧ s'.handler = s.handler := by
  cases p with
  | nest b =>
    obtain ⟨s', m⟩ := b.links document s pre post index hindex hops nofun
    refine ⟨s', m.visits, m.ops, ?_, m.handler⟩
    rw [m.constructs, noteBreaks_of_onlySkills _ hskills]
    exact hskills
  | startSkill name =>
    have hop := Draft.op?_of_ops (hops.trans (List.append_assoc ..)) hindex
    refine ⟨s.linkStartSkill document index name, .single hop rfl, hops, ?_, rfl⟩
    exact List.forall_mem_cons.2 ⟨rfl, hskills⟩
  | endSkill name =>
    have hop := Draft.op?_of_ops (hops.trans (List.append_assoc ..)) hindex
    cases hc : s.constructs with
    | nil =>
      refine ⟨s, .single hop ?_, hops, hskills, rfl⟩
      change s.linkEndSkill = _
      unfold linkEndSkill
      rw [hc]
    | cons c rest =>
      rw [hc] at hskills
      obtain ⟨rfl, hrest⟩ := List.forall_mem_cons.1 hskills
      exact ⟨_, .single hop (visit_endSkill document name hc), hops, hrest, rfl⟩

theorem links_pieces (pieces : List Piece) {pre post : List Op} (hindex : index = pre.length)
    (hops : s.draft.ops = pre ++ Piece.rawAll pieces ++ post) (hskills : OnlySkills s.constructs) :
    ∃ s', Visits document index (Piece.rawAll pieces).length s s' ∧
      s'.draft.ops = pre ++ Piece.flatAll pieces index ++ post ∧
      OnlySkills s'.constructs ∧ s'.handler = s.handler := by
  induction pieces generalizing s pre index with
  | nil => exact ⟨s, .refl, hops, hskills, rfl⟩
  | cons p rest ih =>
    obtain ⟨s₁, v₁, hops₁, hskills₁, hhandler₁⟩ := links_piece p hindex
      (hops.trans (by simp : _ = pre ++ p.raw ++ (Piece.rawAll rest ++ post))) hskills
    have hindex₁ : index + p.size = (pre ++ p.flat index).length := by simp [hindex]
    obtain ⟨s₂, v₂, hops₂, hskills₂, hhandler₂⟩ :=
      ih hindex₁ (hops₁.trans (by simp)) hskills₁
    have hvisits := v₁.trans v₂
    rw [← p.length_raw, ← List.length_append] at hvisits
    exact ⟨s₂, hvisits, hops₂.trans (by simp [Piece.flatAll]), hskills₂,
      hhandler₂.trans hhandler₁⟩

/-! ## What the linker has read -/

/-- What was read with these constructs open is the text of complete trees around the beginnings of
the constructs. The flag says whether a break may follow. -/
inductive Opened : Bool → List Construct → List Op → Prop
  | outside (pieces : List Piece) : Opened false [] (Piece.rawAll pieces)
  | when {l : Bool} {rest : List Construct} {front : List Op} {start : Nat}
    (h : Opened l rest front) (condition : String) (ifElse ifEnd : Nat) (yes : Nest l) :
    Opened l (.condition start none :: rest)
      (front ++ .checkCondition condition ifElse ifEnd :: yes.raw)
  | choose {l : Bool} {rest : List Construct} {front : List Op} {start mark : Nat}
    (h : Opened l rest front) (condition : String) (ifElse ifEnd : Nat) (yes no : Nest l) :
    Opened l (.condition start (some mark) :: rest)
      (front ++ .checkCondition condition ifElse ifEnd :: yes.raw ++ .stub .orElse :: no.raw)
  | loop {l : Bool} {rest : List Construct} {front : List Op} {start : Nat} {breaks : List Nat}
    (h : Opened l rest front) (guard count counter : String) (stop : Nat) (body : Nest true) :
    Opened true (.loop start breaks :: rest)
      (front ++ .loop guard count counter stop :: body.raw)
  | function {l : Bool} {rest : List Construct} {front : List Op} {start : Nat}
    (h : Opened l rest front) (name param : String) (body : Nest false) :
    Opened false (.function start :: rest)
      (front ++ .stub (.startFunction name param) :: body.raw)
  | skill {l : Bool} {rest : List Construct} {front : List Op}
    (h : Opened l rest front) (name : String) (body : Nest false) :
    Opened false (.skill :: rest) (front ++ .stub (.startSkill name) :: body.raw)

namespace Opened

variable {l : Bool} {constructs constructs' rest : List Construct} {read : List Op}

/-- A complete tree belongs to the innermost construct. -/
theorem extend (h : Opened l constructs read) (b : Nest l) :
    Opened l constructs (read ++ b.raw) := by
  cases h with
  | outside pieces =>
    have hmore := Opened.outside (pieces ++ [.nest b])
    simpa [Piece.raw] using hmore
  | when h condition ifElse ifEnd yes =>
    simpa [Nest.raw] using h.when condition ifElse ifEnd (yes.seq b)
  | choose h condition ifElse ifEnd yes no =>
    simpa [Nest.raw] using h.choose condition ifElse ifEnd yes (no.seq b)
  | loop h guard count counter stop body =>
    simpa [Nest.raw] using h.loop guard count counter stop (body.seq b)
  | function h name param body => simpa [Nest.raw] using h.function name param (body.seq b)
  | skill h name body => simpa [Nest.raw] using h.skill name (body.seq b)

theorem addBreak (h : Opened l constructs read)
    (hbreak : LinkState.addBreak index constructs = some constructs') :
    l = true ∧ Opened l constructs' read := by
  induction h generalizing constructs' with
  | outside => cases hbreak
  | when h condition ifElse ifEnd yes ih =>
    obtain ⟨rest', hrest, rfl⟩ := Option.map_eq_some_iff.1 hbreak
    obtain ⟨hl, h'⟩ := ih hrest
    exact ⟨hl, h'.when condition ifElse ifEnd yes⟩
  | choose h condition ifElse ifEnd yes no ih =>
    obtain ⟨rest', hrest, rfl⟩ := Option.map_eq_some_iff.1 hbreak
    obtain ⟨hl, h'⟩ := ih hrest
    exact ⟨hl, h'.choose condition ifElse ifEnd yes no⟩
  | loop h guard count counter stop body =>
    cases hbreak
    exact ⟨rfl, h.loop guard count counter stop body⟩
  | function => cases hbreak
  | skill => cases hbreak

theorem endCondition {start : Nat} {orElse : Option Nat}
    (h : Opened l (.condition start orElse :: rest) read) :
    Opened l rest (read ++ [.stub .endCondition]) := by
  cases h with
  | when h condition ifElse ifEnd yes =>
    simpa [Nest.raw] using h.extend (.when condition ifElse ifEnd yes)
  | choose h condition ifElse ifEnd yes no =>
    simpa [Nest.raw] using h.extend (.choose condition ifElse ifEnd yes no)

theorem orElse {start mark : Nat} (h : Opened l (.condition start none :: rest) read) :
    Opened l (.condition start (some mark) :: rest) (read ++ [.stub .orElse]) := by
  cases h with
  | when h condition ifElse ifEnd yes =>
    simpa [Nest.raw] using h.choose condition ifElse ifEnd yes .skip

theorem endLoop {start : Nat} {breaks : List Nat}
    (h : Opened l (.loop start breaks :: rest) read) :
    ∃ l', Opened l' rest (read ++ [.stub .endLoop]) := by
  cases h with
  | loop h guard count counter stop body =>
    exact ⟨_, by simpa [Nest.raw] using h.extend (.loop guard count counter stop body)⟩

theorem endFunction {start : Nat} (h : Opened l (.function start :: rest) read) (name : String) :
    ∃ l', Opened l' rest (read ++ [.stub (.endFunction name)]) := by
  cases h with
  | function h opening param body =>
    exact ⟨_, by simpa [Nest.raw] using h.extend (.function opening param name body)⟩

theorem endSkill (h : Opened l (.skill :: rest) read) (name : String) :
    ∃ l', Opened l' rest (read ++ [.stub (.endSkill name)]) := by
  cases h with
  | skill h opening body =>
    exact ⟨_, by simpa [Nest.raw] using h.extend (.skill opening name body)⟩

theorem strayEnd (h : Opened l [] read) (name : String) :
    ∃ l', Opened l' [] (read ++ [.stub (.endSkill name)]) := by
  cases h with
  | outside pieces =>
    have hmore := Opened.outside (pieces ++ [.endSkill name])
    exact ⟨false, by simpa [Piece.raw] using hmore⟩

/-- With nothing but skills open, complete trees and marks of skills were read. -/
theorem pieces (h : Opened l constructs read) (hskills : OnlySkills constructs) :
    ∃ pieces, read = Piece.rawAll pieces := by
  induction h with
  | outside pieces => exact ⟨pieces, rfl⟩
  | skill h name body ih =>
    obtain ⟨pieces, rfl⟩ := ih (List.forall_mem_cons.1 hskills).2
    exact ⟨pieces ++ [.startSkill name, .nest body], by simp [Piece.raw]⟩
  | _ => cases hskills _ List.mem_cons_self

end Opened

/-! ## Only well-nested documents are accepted -/

/-- Reading one more instruction keeps the stack and what was read in step. -/
theorem Visited.opened_append {l : Bool} {read : List Op} (h : Opened l s.constructs read)
    (hop : op.Unexceptional) (hv : s.Visited document index op s') :
    (∃ l', Opened l' s'.constructs (read ++ [op])) ∧ s'.handler = s.handler := by
  cases hv with
  | condition condition ifElse ifEnd => exact ⟨⟨l, h.when condition ifElse ifEnd .skip⟩, rfl⟩
  | loop guard count counter stop => exact ⟨⟨true, h.loop guard count counter stop .skip⟩, rfl⟩
  | orElse hc =>
    rw [hc] at h
    exact ⟨⟨l, h.orElse⟩, rfl⟩
  | endWhen hc =>
    rw [hc] at h
    exact ⟨⟨l, h.endCondition⟩, rfl⟩
  | endChoose hc =>
    rw [hc] at h
    exact ⟨⟨l, h.endCondition⟩, rfl⟩
  | breakLoop hbreak =>
    obtain ⟨rfl, h⟩ := h.addBreak hbreak
    exact ⟨⟨true, h.extend .leave⟩, rfl⟩
  | endLoop _ hc =>
    rw [hc] at h
    exact ⟨h.endLoop, rfl⟩
  | startFunction name param => exact ⟨⟨false, h.function name param .skip⟩, rfl⟩
  | endFunction name hc =>
    rw [hc] at h
    exact ⟨h.endFunction name, rfl⟩
  | startSkill name => exact ⟨⟨false, h.skill name .skip⟩, rfl⟩
  | endSkill name hc =>
    rw [hc] at h
    exact ⟨h.endSkill name, rfl⟩
  | strayEnd name hc =>
    rw [hc] at h ⊢
    exact ⟨h.strayEnd name, rfl⟩
  | handler | endException => exact hop.elim
  | tag name => exact ⟨⟨l, h.extend (.plain (.stub (.tag name)) trivial)⟩, rfl⟩
  | other op hpassed => exact ⟨⟨l, h.extend (.plain op hpassed)⟩, rfl⟩

/-! ## Instructions that are still to be read -/

theorem behind_addBreak {constructs constructs' : List Construct}
    (h : addBreak index constructs = some constructs') (hs : ∀ c ∈ constructs, c.Behind index) :
    ∀ c ∈ constructs', c.Behind (index + 1) := by
  induction constructs generalizing constructs' with
  | nil => cases h
  | cons c rest ih =>
    obtain ⟨hc, hrest⟩ := List.forall_mem_cons.1 hs
    cases c with
    | condition start orElse =>
      obtain ⟨rest', hrest', rfl⟩ := Option.map_eq_some_iff.1 h
      exact List.forall_mem_cons.2 ⟨hc.succ, ih hrest' hrest⟩
    | loop start breaks =>
      cases h
      refine List.forall_mem_cons.2 ⟨⟨Nat.lt_succ_of_lt hc.1, ?_⟩, fun c hmem => (hrest c hmem).succ⟩
      intro b hb
      rcases List.mem_append.1 hb with hb | hb
      · exact Nat.lt_succ_of_lt (hc.2 b hb)
      · exact List.mem_singleton.1 hb ▸ Nat.lt_succ_self index
    | function start => cases h
    | skill => cases h

theorem Visited.behind (hs : ∀ c ∈ s.constructs, c.Behind index)
    (hv : s.Visited document index op s') : ∀ c ∈ s'.constructs, c.Behind (index + 1) := by
  have hsame : ∀ c ∈ s.constructs, c.Behind (index + 1) := fun c hc => (hs c hc).succ
  have hopen {c : Construct} (hc : c.Behind (index + 1)) :
      ∀ b ∈ c :: s.constructs, b.Behind (index + 1) := List.forall_mem_cons.2 ⟨hc, hsame⟩
  have hclosed {c : Construct} {rest : List Construct} (h : s.constructs = c :: rest) :
      ∀ b ∈ rest, b.Behind (index + 1) :=
    fun b hb => hsame b (by rw [h]; exact List.mem_cons_of_mem c hb)
  cases hv with
  | condition => exact hopen ⟨Nat.lt_succ_self index, nofun⟩
  | loop => exact hopen ⟨Nat.lt_succ_self index, nofun⟩
  | @orElse start rest h =>
    have hstart := hs (.condition start none) (by rw [h]; exact List.mem_cons_self)
    refine List.forall_mem_cons.2 ⟨⟨Nat.lt_succ_of_lt hstart.1, ?_⟩, hclosed h⟩
    rintro mark ⟨⟩
    exact Nat.lt_succ_self index
  | endWhen h => exact hclosed h
  | endChoose h => exact hclosed h
  | breakLoop h => exact behind_addBreak h hs
  | endLoop _ h => exact hclosed h
  | startFunction => exact hopen (Nat.lt_succ_self index)
  | endFunction _ h => exact hclosed h
  | startSkill => exact hopen trivial
  | endSkill _ h => exact hclosed h
  | strayEnd | handler | endException | tag | other => exact hsame

theorem op?_setOps_of_lt {indices : List Nat} {j : Nat} (op : Op) (d : Draft)
    (h : ∀ k ∈ indices, k < j) : (indices.foldl (fun d k => d.setOp k op) d).op? j = d.op? j := by
  induction indices generalizing d with
  | nil => rfl
  | cons k rest ih =>
    obtain ⟨hk, hrest⟩ := List.forall_mem_cons.1 h
    rw [List.foldl_cons, ih _ hrest]
    exact (Draft.op?_modifyOp _ _ d j).trans (if_neg (Nat.ne_of_lt hk))

/-- Visiting an instruction changes it, and instructions ahead of it, only. -/
theorem Visited.ahead (hs : ∀ c ∈ s.constructs, c.Behind index)
    (hhandler : ∀ start, s.handler = some start → start < index)
    (hv : s.Visited document index op s') {j : Nat} (hj : index < j) :
    s'.draft.op? j = s.draft.op? j := by
  have hother {k : Nat} (hk : k ≤ index) (f : Op → Op) (d : Draft) :
      (d.modifyOp k f).op? j = d.op? j :=
    (Draft.op?_modifyOp k f d j).trans (if_neg (Nat.ne_of_lt (Nat.lt_of_le_of_lt hk hj)))
  have hhead {c : Construct} {rest : List Construct} (h : s.constructs = c :: rest) :
      c.Behind index := hs c (by rw [h]; exact List.mem_cons_self)
  cases hv with
  | orElse h => exact hother (Nat.le_of_lt (hhead h).1) _ _
  | endWhen h =>
    have hstart := Nat.le_of_lt (hhead h).1
    exact (hother (Nat.le_refl index) _ _).trans
      ((hother hstart _ _).trans (hother hstart _ _))
  | endChoose h =>
    have hmark := Nat.le_of_lt ((hhead h).2 _ rfl)
    exact (hother (Nat.le_refl index) _ _).trans
      ((hother hmark _ _).trans (hother (Nat.le_of_lt (hhead h).1) _ _))
  | @endLoop start breaks rest increment h =>
    have hbreaks := op?_setOps_of_lt (.goto (index + 1) none)
      ((s.draft.modifyOp start (setStop (index + 1))).setOp index (.goto start increment))
      fun b hb => Nat.lt_trans ((hhead h).2 b hb) hj
    exact hbreaks.trans ((hother (Nat.le_refl index) _ _).trans
      (hother (Nat.le_of_lt (hhead h).1) _ _))
  | endFunction _ h => exact hother (Nat.le_of_lt (hhead h)) _ _
  | endException h => exact hother (Nat.le_of_lt (hhandler _ h)) _ _
  | _ => rfl

theorem visitFrom_beyond (n : Nat) (h : s.draft.op? index = none) :
    visitFrom document index n s = .ok s := by
  cases n with
  | zero => rfl
  | succ n =>
    have hnone : s.draft.instructions[index]? = none := Option.map_eq_none_iff.1 h
    simp only [visitFrom, hnone]

/-- Reading so many instructions keeps the stack and what was read in step. -/
theorem opened_visitFrom (n : Nat) {l : Bool} {read : List Op} (h : Opened l s.constructs read)
    (hs : ∀ c ∈ s.constructs, c.Behind index) (hhandler : s.handler = none)
    (hops : ∀ op ∈ (s.draft.ops.drop index).take n, op.Unexceptional)
    (hv : visitFrom document index n s = .ok s') :
    s'.handler = none ∧
      ∃ l', Opened l' s'.constructs (read ++ (s.draft.ops.drop index).take n) := by
  induction n generalizing index s l read with
  | zero =>
    cases hv
    exact ⟨hhandler, l, by simpa using h⟩
  | succ n ih =>
    cases hop : s.draft.op? index with
    | none =>
      have hlength : s.draft.ops.length ≤ index := by
        rw [← List.getElem?_eq_none_iff, Draft.getElem?_ops, hop]
      rw [visitFrom_beyond (n + 1) hop] at hv
      rw [List.drop_eq_nil_of_le hlength]
      cases hv
      exact ⟨hhandler, l, by simpa using h⟩
    | some op =>
      obtain ⟨i, hi, rfl⟩ := Option.map_eq_some_iff.1 hop
      have hdrop : s.draft.ops.drop index = i.op :: s.draft.ops.drop (index + 1) := by
        rw [List.drop_eq_getElem?_toList_append, Draft.getElem?_ops, hop]
        rfl
      rw [hdrop, List.take_succ_cons] at hops ⊢
      unfold visitFrom at hv
      rw [hi] at hv
      obtain ⟨s₁, hv₁, hv⟩ := bind_eq_ok hv
      have hvisited := visited hv₁
      obtain ⟨⟨l₁, h₁⟩, hhandler₁⟩ := hvisited.opened_append h (hops i.op List.mem_cons_self)
      have hrest : s₁.draft.ops.drop (index + 1) = s.draft.ops.drop (index + 1) := by
        refine List.ext_getElem? fun j => ?_
        rw [List.getElem?_drop, List.getElem?_drop, Draft.getElem?_ops, Draft.getElem?_ops]
        exact hvisited.ahead hs (by simp [hhandler]) (by omega)
      have hih := ih h₁ (hvisited.behind hs) (hhandler₁.trans hhandler)
        (by rw [hrest]; exact fun op hmem => hops op (List.mem_cons_of_mem _ hmem)) hv
      rwa [hrest, List.append_assoc] at hih

/-! ## The faults of linking -/

theorem visit_ofNesting {e : SkillFault} (h : s.visit document index op = .error e) :
    e.OfNesting := by
  have hunmatched {stub : String} (h : s.unmatched stub index = (.error e : Except _ LinkState)) :
      e.OfNesting := by
    cases h
    trivial
  unfold visit at h
  split at h
  case h_3 | h_4 | h_5 | h_6 | h_8 | h_12 =>
    simp only [linkElse, linkEndCondition, linkBreak, linkEndLoop, linkEndFunction,
      linkEndException] at h
    split at h
    · cases h
    · exact hunmatched h
  case h_10 =>
    unfold linkEndSkill at h
    split at h
    · cases h
    · split at h
      · cases h
        trivial
      · cases h
    · cases h
  all_goals cases h

theorem visitFrom_ofNesting (n : Nat) {e : SkillFault}
    (h : visitFrom document index n s = .error e) : e.OfNesting := by
  induction n generalizing index s with
  | zero => cases h
  | succ n ih =>
    unfold visitFrom at h
    split at h
    · cases h
    · next i _ =>
      cases hv : s.visit document index i.op with
      | error e' =>
        rw [hv] at h
        cases h
        exact visit_ofNesting hv
      | ok s₁ =>
        rw [hv] at h
        exact ih h

theorem close_ofNesting {e : SkillFault} (h : s.close = .error e) : e.OfNesting := by
  unfold close at h
  split at h
  · cases h
    trivial
  · split at h
    · cases h
      trivial
    · cases h

theorem onlySkills_of_close {d : Draft} (h : s.close = .ok d) : OnlySkills s.constructs := by
  unfold close at h
  split at h
  · cases h
  · split at h
    · cases h
    · next hnone =>
      intro c hc
      have hopening := List.findSome?_eq_none_iff.1 hnone c (List.mem_reverse.2 hc)
      cases c with
      | skill => rfl
      | _ => cases hopening

theorem close_of_onlySkills (hskills : OnlySkills s.constructs) (hhandler : s.handler = none) :
    s.close = .ok s.draft := by
  have hnone : s.constructs.reverse.findSome? Construct.opening? = none := by
    refine List.findSome?_eq_none_iff.2 fun c hc => ?_
    rw [hskills c (List.mem_reverse.1 hc)]
    rfl
  unfold close
  rw [hhandler, hnone]

end LinkState

/-! ## Linking a document -/

namespace Draft

open LinkState

variable {d d' : Draft} {document : Nat} {sec : Section}

/-- What the instructions of a range do. -/
def opsIn (span : DocumentSpan) (d : Draft) : List Op :=
  (d.ops.drop span.start).take (span.stop - span.start)

theorem linkDocument_eq (hsec : d.sections[document]? = some sec) :
    d.linkDocument document =
      visitFrom document sec.span.start (sec.span.stop - sec.span.start) ⟨d, [], none⟩ >>= close := by
  unfold linkDocument
  rw [hsec]

/-- Reading a range that begins in a draft and is the text of pieces links the pieces. -/
theorem visitFrom_pieces (pieces : List Piece) {start size : Nat} (hstart : start ≤ d.ops.length)
    (hops : (d.ops.drop start).take size = Piece.rawAll pieces) :
    ∃ s, visitFrom document start size ⟨d, [], none⟩ = .ok s ∧
      s.draft.ops =
        d.ops.take start ++ Piece.flatAll pieces start ++ (d.ops.drop start).drop size ∧
      OnlySkills s.constructs ∧ s.handler = none := by
  have hsplit : d.ops =
      d.ops.take start ++ Piece.rawAll pieces ++ (d.ops.drop start).drop size := by
    rw [← hops, List.append_assoc, List.take_append_drop, List.take_append_drop]
  obtain ⟨s, hvisits, hlinked, hskills, hhandler⟩ := links_pieces (s := ⟨d, [], none⟩) pieces
    (List.length_take_of_le hstart).symm hsplit (List.forall_mem_nil _)
  refine ⟨s, ?_, hlinked, hskills, hhandler⟩
  have hlength := congrArg List.length hops
  rw [List.length_take, List.length_drop] at hlength
  obtain ⟨extra, rfl⟩ : ∃ extra, size = (Piece.rawAll pieces).length + extra :=
    ⟨size - (Piece.rawAll pieces).length, by omega⟩
  rw [hvisits]
  cases extra with
  | zero => rfl
  | succ extra =>
    -- The range goes on behind the last instruction.
    have hbeyond : s.draft.ops.length ≤ start + (Piece.rawAll pieces).length := by
      rw [hlinked]
      simp only [List.length_append, List.length_take, List.length_drop, Piece.length_flatAll]
      omega
    rw [← List.getElem?_eq_none_iff, getElem?_ops] at hbeyond
    exact visitFrom_beyond _ hbeyond

/-- A well-nested document is linked, and its marks refer to their partners in the trees. -/
theorem linkDocument_of_wellNested (hsec : d.sections[document]? = some sec) {pieces : List Piece}
    (hops : d.opsIn sec.span = Piece.rawAll pieces) :
    ∃ d', d.linkDocument document = .ok d' ∧
      d'.ops = d.ops.take sec.span.start ++ Piece.flatAll pieces sec.span.start ++
        (d.ops.drop sec.span.start).drop (sec.span.stop - sec.span.start) := by
  have hlink := linkDocument_eq hsec
  unfold opsIn at hops
  by_cases hstart : sec.span.start ≤ d.ops.length
  · obtain ⟨s, hread, hlinked, hskills, hhandler⟩ := visitFrom_pieces pieces hstart hops
    refine ⟨s.draft, ?_, hlinked⟩
    rw [hlink, hread]
    exact close_of_onlySkills hskills hhandler
  · have hbeyond : d.ops.length ≤ sec.span.start := by omega
    have hnone : d.op? sec.span.start = none := by rwa [← getElem?_ops, List.getElem?_eq_none_iff]
    have hempty : Piece.flatAll pieces sec.span.start = [] := by
      rw [List.drop_eq_nil_of_le hbeyond, List.take_nil] at hops
      rw [← List.length_eq_zero_iff, Piece.length_flatAll, ← hops]
      rfl
    refine ⟨d, ?_, ?_⟩
    · rw [hlink, visitFrom_beyond _ hnone]
      rfl
    · rw [hempty, List.take_of_length_le hbeyond, List.drop_eq_nil_of_le hbeyond]
      simp

theorem wellNested_of_linkDocument (hsec : d.sections[document]? = some sec)
    (hcalm : ∀ op ∈ d.opsIn sec.span, op.Unexceptional) (h : d.linkDocument document = .ok d') :
    ∃ pieces, d.opsIn sec.span = Piece.rawAll pieces := by
  rw [linkDocument_eq hsec] at h
  obtain ⟨s, hvisits, hclose⟩ := bind_eq_ok h
  have hstart : Opened false [] [] := .outside []
  obtain ⟨-, l, hopened⟩ := opened_visitFrom (s := ⟨d, [], none⟩) _ hstart (List.forall_mem_nil _)
    rfl hcalm hvisits
  exact hopened.pieces (onlySkills_of_close hclose)

theorem linkDocument_ofNesting (hsec : d.sections[document]? = some sec) {e : SkillFault}
    (h : d.linkDocument document = .error e) : e.OfNesting := by
  rw [linkDocument_eq hsec] at h
  cases hvisits : visitFrom document sec.span.start (sec.span.stop - sec.span.start)
      ⟨d, [], none⟩ with
  | error e' =>
    rw [hvisits] at h
    cases h
    exact visitFrom_ofNesting _ hvisits
  | ok s =>
    rw [hvisits] at h
    exact close_ofNesting h

/-- Linking accepts exactly the well-nested documents. Every tree that a document is the text of
says what it is linked to, and a document that is not well nested is rejected for its nesting. -/
theorem linkDocument_wellNested (hsec : d.sections[document]? = some sec)
    (hcalm : ∀ op ∈ d.opsIn sec.span, op.Unexceptional) :
    ((∃ d', d.linkDocument document = .ok d') ↔
      ∃ pieces, d.opsIn sec.span = Piece.rawAll pieces) ∧
    (∀ pieces d', d.opsIn sec.span = Piece.rawAll pieces → d.linkDocument document = .ok d' →
      d'.ops = d.ops.take sec.span.start ++ Piece.flatAll pieces sec.span.start ++
        (d.ops.drop sec.span.start).drop (sec.span.stop - sec.span.start)) ∧
    ∀ e, d.linkDocument document = .error e → e.OfNesting := by
  refine ⟨⟨?_, ?_⟩, ?_, ?_⟩
  · rintro ⟨d', h⟩
    exact wellNested_of_linkDocument hsec hcalm h
  · rintro ⟨pieces, hops⟩
    obtain ⟨d', h, -⟩ := linkDocument_of_wellNested hsec hops
    exact ⟨d', h⟩
  · intro pieces d' hops h
    obtain ⟨d'', h', hlinked⟩ := linkDocument_of_wellNested hsec hops
    rw [h] at h'
    cases h'
    exact hlinked
  · intro e h
    exact linkDocument_ofNesting hsec h

/-- A skill that stays open, and a loop that is left in a condition. -/
def searchingOps : List Op :=
  [.stub (.startSkill "search"), .loop "" "3" "i" 0, .checkCondition "found" 0 0,
    .stub .breakLoop, .stub .endCondition, .stub .endLoop, .finish]

def searchingDraft : Draft where
  instructions := (searchingOps.map (⟨⟨"search", 1, false⟩, ·⟩)).toArray
  sections := #[⟨⟨"search", 0, 7⟩, [], [], []⟩]
  skills := []
  handlers := []
  references := []

theorem linkDocument_wellNested_searching : ∃ d', searchingDraft.linkDocument 0 = .ok d' ∧
    d'.ops = [.stub (.startSkill "search"), .loop "" "3" "i" 6, .checkCondition "found" 5 5,
      .goto 6 none, .goto 5 none, .goto 1 (some "i"), .finish] := by
  have hsec : searchingDraft.sections[0]? = some ⟨⟨"search", 0, 7⟩, [], [], []⟩ := rfl
  have hcalm : ∀ op ∈ searchingDraft.opsIn ⟨"search", 0, 7⟩, op.Unexceptional := by
    simp [searchingDraft, searchingOps, opsIn, ops, Op.Unexceptional]
  have hops : searchingDraft.opsIn ⟨"search", 0, 7⟩ = Piece.rawAll [.startSkill "search",
      .nest (.seq (.loop "" "3" "i" 0 (.when "found" 0 0 .leave)) (.plain .finish trivial))] := rfl
  obtain ⟨haccepts, hcode, -⟩ := linkDocument_wellNested hsec hcalm
  obtain ⟨d', h⟩ := haccepts.2 ⟨_, hops⟩
  exact ⟨d', h, hcode _ _ hops h⟩

end Draft

end Deskhand
