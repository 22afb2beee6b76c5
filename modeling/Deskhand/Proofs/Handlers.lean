import Deskhand.Proofs.BlockMarks
import Deskhand.Proofs.Drafting
import Deskhand.Proofs.Targets

/-!
# Blocks of exception handlers

Beside the open constructs the linker remembers one exception handler. It gives it its end at the
next end of a block, and a handler that comes before that takes its place (`LinkState.MarkVisit`). No
construct ever waits for a target of a mark of a block (`LinkState.Free`), and no reference is open at
one (`Draft.Drafted.marks_reference`), so nothing else changes the marks. When all documents are linked
each of them is `BlockMarks.Blocked` with no handler open (`Draft.BlocksTo`), and looking references up
leaves it so.
-/

namespace Deskhand

/-! ## The marks of a draft -/

/-- The instructions that a construct waits to give a target to. -/
def Construct.places : Construct → List Nat
  | condition start orElse => start :: orElse.toList
  | loop start breaks => start :: breaks
  | function start => [start]
  | skill => []

theorem Op.blockMark?_opens {op : Op} {stop : Nat} (h : op.blockMark? = some (.opens stop)) :
    ∃ args, op = .exceptionHandler args stop := by
  cases op with
  | exceptionHandler args stop' =>
    cases h
    exact ⟨args, rfl⟩
  | _ => cases h

theorem Op.blockMark?_closes {op : Op} (h : op.blockMark? = some .closes) : op = .endException := by
  cases op with
  | endException => rfl
  | _ => cases h

theorem Op.Takes.blockMark?_eq_none {op : Op} {refers : Reference} (h : op.Takes refers) :
    op.blockMark? = none := by
  cases h <;> rfl

namespace Draft

def marks (d : Draft) : BlockMarks := fun j => (d.op? j).bind Op.blockMark?

variable {d : Draft} {k : Nat} {f : Op → Op}

theorem marks_of_op? {op : Op} (h : d.op? k = some op) : d.marks k = op.blockMark? := by
  unfold marks
  rw [h]
  rfl

theorem marks_modifyOp (hf : ∀ op, d.op? k = some op → (f op).blockMark? = op.blockMark?) :
    (d.modifyOp k f).marks = d.marks := by
  funext j
  unfold marks
  rw [op?_modifyOp]
  split
  · next heq =>
    subst heq
    cases hop : d.op? k with
    | none => rfl
    | some op => exact hf op hop
  · rfl

theorem marks_setOp {op : Op} (h : d.marks k = none) (hop : op.blockMark? = none) :
    (d.setOp k op).marks = d.marks := by
  refine marks_modifyOp fun old hold => ?_
  rw [marks_of_op? hold] at h
  rw [hop, h]

theorem marks_foldl_setOp {op : Op} (hop : op.blockMark? = none) (breaks : List Nat) {d : Draft}
    (h : ∀ b ∈ breaks, d.marks b = none) :
    (breaks.foldl (fun d b => d.setOp b op) d).marks = d.marks := by
  induction breaks generalizing d with
  | nil => rfl
  | cons b rest ih =>
    obtain ⟨hb, hrest⟩ := List.forall_mem_cons.1 h
    have hset : (d.setOp b op).marks = d.marks := marks_setOp hb hop
    rw [List.foldl_cons, ih (by rwa [hset]), hset]

end Draft

namespace LinkState

open Draft

theorem blockMark?_setElse (target : Nat) (op : Op) :
    (setElse target op).blockMark? = op.blockMark? := by
  cases op <;> rfl

theorem blockMark?_setEnd (target : Nat) (op : Op) :
    (setEnd target op).blockMark? = op.blockMark? := by
  cases op <;> rfl

theorem blockMark?_setStop {target : Nat} {op : Op} (h : op.blockMark? = none) :
    (setStop target op).blockMark? = none := by
  cases op with
  | exceptionHandler args stop => cases h
  | endException => cases h
  | _ => rfl

theorem marks_setElse (k target : Nat) (d : Draft) :
    (d.modifyOp k (setElse target)).marks = d.marks :=
  marks_modifyOp fun op _ => blockMark?_setElse target op

theorem marks_setEnd (k target : Nat) (d : Draft) :
    (d.modifyOp k (setEnd target)).marks = d.marks :=
  marks_modifyOp fun op _ => blockMark?_setEnd target op

theorem marks_setStop {d : Draft} {k : Nat} (target : Nat) (h : d.marks k = none) :
    (d.modifyOp k (setStop target)).marks = d.marks := by
  refine marks_modifyOp fun op hop => ?_
  rw [marks_of_op? hop] at h
  rw [blockMark?_setStop h, h]

theorem marks_setStop_handler {d : Draft} {k stop : Nat} (target : Nat)
    (h : d.marks k = some (.opens stop)) :
    (d.modifyOp k (setStop target)).marks = d.marks.give k target := by
  funext j
  by_cases hj : j = k
  · subst hj
    obtain ⟨op, hop, hmark⟩ := Option.bind_eq_some_iff.1 h
    obtain ⟨args, rfl⟩ := Op.blockMark?_opens hmark
    rw [BlockMarks.give_self]
    unfold marks
    rw [op?_modifyOp, if_pos rfl, hop]
    rfl
  · rw [BlockMarks.give_of_ne hj]
    unfold marks
    rw [op?_modifyOp, if_neg (Ne.symm hj)]

/-! ## One visit -/

/-- No mark of a block is a place that waits for a target. -/
def Free (s : LinkState) : Prop := ∀ c ∈ s.constructs, ∀ j ∈ c.places, s.draft.marks j = none

/-- What a visit does to the blocks. -/
inductive MarkVisit (index : Nat) (s s' : LinkState) : Prop
  | passed (hmark : s.draft.marks index = none) (hhandler : s'.handler = s.handler)
    (hmarks : s'.draft.marks = s.draft.marks)
  | opens {stop : Nat} (hmark : s.draft.marks index = some (.opens stop))
    (hhandler : s'.handler = some index) (hmarks : s'.draft.marks = s.draft.marks)
  | closes {start : Nat} (hmark : s.draft.marks index = some .closes)
    (hopen : s.handler = some start) (hhandler : s'.handler = none)
    (hmarks : s'.draft = s.draft.modifyOp start (setStop (index + 1)))

variable {document index : Nat} {op : Op} {s s' : LinkState}

/-- The targets that constructs get do not touch the marks of blocks. -/
theorem Visited.markVisit (hfree : s.Free) (hop : s.draft.op? index = some op)
    (hv : s.Visited document index op s') : s.MarkVisit index s' := by
  have hmark : s.draft.marks index = op.blockMark? := marks_of_op? hop
  have hplaces : ∀ {c : Construct} {rest : List Construct}, s.constructs = c :: rest →
      ∀ j ∈ c.places, s.draft.marks j = none :=
    fun hc => hfree _ (by rw [hc]; exact List.mem_cons_self)
  cases hv with
  | handler args stop => exact .opens hmark rfl rfl
  | endException h => exact .closes hmark h rfl rfl
  | orElse h => exact .passed hmark rfl (marks_setElse _ _ _)
  | @endWhen start rest h =>
    have hmarks : ((s.draft.modifyOp start (setEnd (index + 1))).modifyOp start
        (setElse (index + 1))).marks = s.draft.marks :=
      (marks_setElse _ _ _).trans (marks_setEnd _ _ _)
    refine .passed hmark rfl ((marks_setOp ?_ rfl).trans hmarks)
    rw [hmarks]
    exact hmark
  | @endChoose start orElse rest h =>
    have hend : (s.draft.modifyOp start (setEnd (index + 1))).marks = s.draft.marks :=
      marks_setEnd _ _ _
    have horElse : ((s.draft.modifyOp start (setEnd (index + 1))).setOp orElse
        (.goto (index + 1) none)).marks = s.draft.marks := by
      refine (marks_setOp ?_ rfl).trans hend
      rw [hend]
      exact hplaces h orElse (List.mem_cons_of_mem _ List.mem_cons_self)
    refine .passed hmark rfl ((marks_setOp ?_ rfl).trans horElse)
    rw [horElse]
    exact hmark
  | @endLoop start breaks rest increment h =>
    have hstop : (s.draft.modifyOp start (setStop (index + 1))).marks = s.draft.marks :=
      marks_setStop _ (hplaces h start List.mem_cons_self)
    have hback : ((s.draft.modifyOp start (setStop (index + 1))).setOp index
        (.goto start increment)).marks = s.draft.marks := by
      refine (marks_setOp ?_ rfl).trans hstop
      rw [hstop]
      exact hmark
    refine .passed hmark rfl ((marks_foldl_setOp rfl breaks fun b hb => ?_).trans hback)
    rw [hback]
    exact hplaces h b (List.mem_cons_of_mem _ hb)
  | @endFunction name start rest h =>
    exact .passed hmark rfl (marks_setOp (hplaces h start List.mem_cons_self) rfl)
  | other _ hpassed =>
    refine .passed ?_ rfl rfl
    rw [hmark]
    cases op with
    | exceptionHandler args stop => cases hpassed
    | endException => cases hpassed
    | _ => rfl
  | _ => exact .passed hmark rfl rfl

theorem MarkVisit.unmarked (h : s.MarkVisit index s') {j : Nat} (hj : s.draft.marks j = none) :
    s'.draft.marks j = none := by
  cases h with
  | passed hmark hhandler hmarks => rwa [hmarks]
  | opens hmark hhandler hmarks => rwa [hmarks]
  | @closes start hmark hopen hhandler hmarks =>
    rw [hmarks]
    unfold marks at hj ⊢
    rw [op?_modifyOp]
    split
    · cases hop : s.draft.op? j with
      | none => rfl
      | some op =>
        rw [hop] at hj
        exact blockMark?_setStop hj
    · exact hj

theorem places_of_addBreak {constructs constructs' : List Construct}
    (h : addBreak index constructs = some constructs') {c' : Construct} (hc' : c' ∈ constructs')
    {j : Nat} (hj : j ∈ c'.places) : j = index ∨ ∃ c ∈ constructs, j ∈ c.places := by
  induction constructs generalizing constructs' with
  | nil => cases h
  | cons c rest ih =>
    cases c with
    | loop start breaks =>
      cases h
      rcases List.mem_cons.1 hc' with rfl | hc'
      · rcases List.mem_cons.1 hj with rfl | hj
        · exact .inr ⟨_, List.mem_cons_self, List.mem_cons_self⟩
        · rcases List.mem_append.1 hj with hj | hj
          · exact .inr ⟨_, List.mem_cons_self, List.mem_cons_of_mem _ hj⟩
          · exact .inl (List.mem_singleton.1 hj)
      · exact .inr ⟨c', List.mem_cons_of_mem _ hc', hj⟩
    | condition start orElse =>
      obtain ⟨rest', hrest, rfl⟩ := Option.map_eq_some_iff.1 h
      rcases List.mem_cons.1 hc' with rfl | hc'
      · exact .inr ⟨_, List.mem_cons_self, hj⟩
      · obtain hnew | ⟨c, hc, hold⟩ := ih hrest hc'
        · exact .inl hnew
        · exact .inr ⟨c, List.mem_cons_of_mem _ hc, hold⟩
    | _ => cases h

/-- The only place that a visit adds is its own, which is no mark of a block. -/
theorem Visited.places (hv : s.Visited document index op s') {c' : Construct}
    (hc' : c' ∈ s'.constructs) {j : Nat} (hj : j ∈ c'.places) :
    j = index ∧ op.blockMark? = none ∨ ∃ c ∈ s.constructs, j ∈ c.places := by
  have hold : c' ∈ s.constructs → ∃ c ∈ s.constructs, j ∈ c.places := fun hmem => ⟨c', hmem, hj⟩
  have hrest : ∀ {c : Construct} {rest : List Construct}, s.constructs = c :: rest → c' ∈ rest →
      ∃ c ∈ s.constructs, j ∈ c.places :=
    fun hc hmem => hold (by rw [hc]; exact List.mem_cons_of_mem _ hmem)
  have hnew : ∀ {c : Construct}, c' ∈ c :: s.constructs → c.places ⊆ [index] →
      j = index ∨ ∃ c ∈ s.constructs, j ∈ c.places := by
    intro c hmem hplaces
    rcases List.mem_cons.1 hmem with rfl | hmem
    · exact .inl (List.mem_singleton.1 (hplaces hj))
    · exact .inr (hold hmem)
  cases hv with
  | condition => exact (hnew hc' (List.Subset.refl _)).imp_left (⟨·, rfl⟩)
  | loop => exact (hnew hc' (List.Subset.refl _)).imp_left (⟨·, rfl⟩)
  | startFunction => exact (hnew hc' (List.Subset.refl _)).imp_left (⟨·, rfl⟩)
  | startSkill => exact (hnew hc' (List.nil_subset _)).imp_left (⟨·, rfl⟩)
  | @orElse start rest h =>
    rcases List.mem_cons.1 hc' with rfl | hmem
    · rcases List.mem_cons.1 hj with rfl | hj
      · exact .inr ⟨_, by rw [h]; exact List.mem_cons_self, List.mem_cons_self⟩
      · exact .inl ⟨List.mem_singleton.1 hj, rfl⟩
    · exact .inr (hrest h hmem)
  | breakLoop h => exact (places_of_addBreak h hc' hj).imp_left (⟨·, rfl⟩)
  | endWhen h => exact .inr (hrest h hc')
  | endChoose h => exact .inr (hrest h hc')
  | endLoop increment h => exact .inr (hrest h hc')
  | endFunction name h => exact .inr (hrest h hc')
  | endSkill name h => exact .inr (hrest h hc')
  | _ => exact .inr (hold hc')

theorem Visited.free (hfree : s.Free) (hop : s.draft.op? index = some op)
    (hv : s.Visited document index op s') : s'.Free := by
  intro c' hc' j hj
  refine (hv.markVisit hfree hop).unmarked ?_
  obtain ⟨rfl, hmark⟩ | ⟨c, hc, hold⟩ := hv.places hc' hj
  · exact (marks_of_op? hop).trans hmark
  · exact hfree c hc j hold

/-! ## Reading a document -/

/-- What reading a document from an index on has done to the blocks of a draft. -/
structure Reading (d : Draft) (start next : Nat) (s : LinkState) : Prop where
  free : s.Free
  blocked : s.draft.marks.Blocked start next s.handler
  kept : ∀ j, s.draft.marks j = d.marks j ∨ (start ≤ j ∧ j < next) ∧ (d.marks j).isSome

theorem Reading.begin (d : Draft) (start : Nat) : Reading d start start ⟨d, [], none⟩ where
  free _ hc := nomatch hc
  blocked := .empty _ _
  kept _ := .inl rfl

variable {d : Draft} {start : Nat}

theorem Visited.reading (hs : Reading d start index s) (hstart : start ≤ index)
    (hraw : ∀ j stop, start ≤ j → d.marks j = some (.opens stop) → stop = Program.sentinel)
    (hop : s.draft.op? index = some op) (hv : s.Visited document index op s') :
    Reading d start (index + 1) s' := by
  have hkept : ∀ j, s.draft.marks j = d.marks j ∨
      (start ≤ j ∧ j < index + 1) ∧ (d.marks j).isSome :=
    fun j => (hs.kept j).imp_right fun h => ⟨⟨h.1.1, Nat.lt_succ_of_lt h.1.2⟩, h.2⟩
  refine ⟨hv.free hs.free hop, ?_, ?_⟩
  · cases hv.markVisit hs.free hop with
    | passed hmark hhandler hmarks =>
      rw [hmarks, hhandler]
      refine hs.blocked.extend (Nat.le_succ index) fun j hle hlt => ?_
      rwa [Nat.le_antisymm (Nat.le_of_lt_succ hlt) hle]
    | @opens stop hmark hhandler hmarks =>
      have hfirst : s.draft.marks index = d.marks index :=
        (hs.kept index).resolve_right fun h => Nat.lt_irrefl _ h.1.2
      rw [hmarks, hhandler]
      refine hs.blocked.opens hstart ?_
      rw [hmark, hraw index stop hstart (hfirst.symm.trans hmark)]
    | @closes handler hmark hopen hhandler hmarks =>
      have hblocked := hs.blocked
      rw [hopen] at hblocked
      obtain ⟨-, -, hopens, -⟩ := hblocked.handler handler rfl
      rw [hmarks, hhandler, marks_setStop_handler _ hopens]
      exact hblocked.closes hmark
  · intro j
    cases hv.markVisit hs.free hop with
    | passed hmark hhandler hmarks =>
      rw [hmarks]
      exact hkept j
    | opens hmark hhandler hmarks =>
      rw [hmarks]
      exact hkept j
    | @closes handler hmark hopen hhandler hmarks =>
      obtain ⟨hle, hlt, hopens, -⟩ := hs.blocked.handler handler hopen
      rw [hmarks, marks_setStop_handler _ hopens]
      by_cases hj : j = handler
      · subst hj
        refine .inr ⟨⟨hle, Nat.lt_succ_of_lt hlt⟩, ?_⟩
        rcases hs.kept j with heq | h
        · rw [← heq, hopens]
          rfl
        · exact h.2
      · rw [BlockMarks.give_of_ne hj]
        exact hkept j

theorem visitFrom_reading (n : Nat) (hs : Reading d start index s) (hstart : start ≤ index)
    (hraw : ∀ j stop, start ≤ j → d.marks j = some (.opens stop) → stop = Program.sentinel)
    (h : visitFrom document index n s = .ok s') : Reading d start (index + n) s' := by
  induction n generalizing index s with
  | zero =>
    cases h
    exact hs
  | succ n ih =>
    unfold visitFrom at h
    split at h
    · next hnone =>
      -- nothing is left to read
      have hsize : s.draft.size ≤ index := Array.getElem?_eq_none_iff.1 hnone
      have hunmarked : ∀ j, index ≤ j → j < index + (n + 1) → s.draft.marks j = none := by
        intro j hle _
        unfold marks
        rw [op?_eq_none.2 (Nat.le_trans hsize hle)]
        rfl
      cases h
      exact ⟨hs.free, hs.blocked.extend (Nat.le_add_right _ _) hunmarked,
        fun j => (hs.kept j).imp_right fun h => ⟨⟨h.1.1, by omega⟩, h.2⟩⟩
    · next i hi =>
      obtain ⟨s₁, h₁, h⟩ := bind_eq_ok h
      have hop : s.draft.op? index = some i.op := congrArg (Option.map Instruction.op) hi
      have hs₁ : Reading d start (index + 1) s₁ := (visited h₁).reading hs hstart hraw hop
      have hs' := ih hs₁ (Nat.le_succ_of_le hstart) h
      rwa [Nat.add_right_comm, Nat.add_assoc] at hs'

theorem handler_of_close {d : Draft} (h : s.close = .ok d) : s.handler = none := by
  unfold close at h
  split at h
  · cases h
  · next hnone => exact hnone

end LinkState

namespace Draft

open LinkState

/-! ## Taking up documents -/

/-- No handler has its end yet. -/
def Unlinked (d : Draft) : Prop :=
  d.All fun _ op => ∀ stop, op.blockEnd? = some stop → stop = Program.sentinel

theorem Unlinked.raw {d : Draft} (h : d.Unlinked) {j stop : Nat}
    (hmark : d.marks j = some (.opens stop)) : stop = Program.sentinel := by
  obtain ⟨op, hop, hmark⟩ := Option.bind_eq_some_iff.1 hmark
  obtain ⟨args, rfl⟩ := Op.blockMark?_opens hmark
  exact h j _ hop stop rfl

theorem code_handlers (document : Nat) (s : RawStep) (c : StepCode) (h : s.code document = .ok c) :
    (∀ op ∈ c.setup, ∀ stop, op.blockEnd? = some stop → stop = Program.sentinel) ∧
      ∀ stop, c.op.blockEnd? = some stop → stop = Program.sentinel := by
  have hrefers : c.Refers := code_refers h
  refine ⟨fun op hop stop hstop => ?_, hrefers.block⟩
  obtain ⟨kind, args, rfl⟩ := hrefers.setup op hop
  cases hstop

theorem pushDocument_unlinked {doc : SkillDocument} {last : Op} (hlast : last.blockEnd? = none)
    {d d' : Draft} {keys : List String} (hd : d.Unlinked)
    (h : d.pushDocument doc last = .ok (d', keys)) : d'.Unlinked := by
  have hnone : ∀ stop, last.blockEnd? = some stop → stop = Program.sentinel := by
    intro stop hstop
    rw [hlast] at hstop
    cases hstop
  exact pushDocument_all code_handlers hnone hd h

theorem ofDocuments_unlinked {main : SkillDocument} {library : SkillLibrary} {d : Draft}
    (h : ofDocuments main library = .ok d) : d.Unlinked := by
  refine ofDocuments_keeps ?_ ?_ ?_ h
  · exact fun d keys h => pushDocument_unlinked rfl .empty h
  · exact fun doc d d' keys hd h => pushDocument_unlinked rfl hd h
  · exact fun d name index hd _ => hd

/-- An instruction with an open reference is no mark of a block. -/
theorem Drafted.marks_reference {d : Draft} (hd : d.Drafted) {r : OpenReference}
    (hr : r ∈ d.references) : d.marks r.index = none := by
  obtain ⟨op, hop, htakes⟩ := hd.references r hr
  rw [marks_of_op? hop]
  exact htakes.blockMark?_eq_none

/-! ## Linking all documents -/

theorem Laid.bound_le {d : Draft} (h : d.Laid) {i k : Nat} (hik : i ≤ k) :
    d.bound i ≤ d.bound k := by
  induction hik with
  | refl => exact Nat.le_refl _
  | step _ ih => exact Nat.le_trans ih (h.ordered _)

/-- What holds of the blocks when the first documents are linked. -/
structure BlocksTo (first : Draft) (k : Nat) (d : Draft) : Prop where
  layout : SameLayout first d
  blocked : ∀ i < k, d.marks.Blocked (first.bound i) (first.bound (i + 1)) none
  kept : ∀ j, d.marks j = first.marks j ∨ j < first.bound k ∧ (first.marks j).isSome

theorem linkDocument_blocksTo {first d d' : Draft} {k : Nat} (hfirst : first.Laid)
    (hunlinked : first.Unlinked) (hk : k < first.sections.size) (hd : BlocksTo first k d)
    (h : d.linkDocument k = .ok d') : BlocksTo first (k + 1) d' := by
  obtain ⟨sec, hsec⟩ : ∃ sec, d.sections[k]? = some sec :=
    ⟨_, Array.getElem?_eq_getElem (hd.layout.sections ▸ hk)⟩
  obtain ⟨-, hstart, hstop⟩ := hd.layout.bounds hfirst hsec
  have hordered := hfirst.ordered k
  unfold linkDocument at h
  rw [hsec] at h
  obtain ⟨s, hs, hclose⟩ := bind_eq_ok h
  rw [hstart, hstop] at hs
  have hraw : ∀ j stop, first.bound k ≤ j → d.marks j = some (.opens stop) →
      stop = Program.sentinel := by
    intro j stop hj hmark
    have hfirst : d.marks j = first.marks j := (hd.kept j).resolve_right fun h => by omega
    exact hunlinked.raw (hfirst.symm.trans hmark)
  have hread := visitFrom_reading _ (.begin d (first.bound k)) (Nat.le_refl _) hraw hs
  rw [Nat.add_sub_cancel' hordered] at hread
  have hblocked := hread.blocked
  rw [handler_of_close hclose] at hblocked
  rw [close_eq hclose]
  refine ⟨hd.layout.trans (sameLayout_of_visitFrom hs), fun i hi => ?_, fun j => ?_⟩
  · rcases Nat.lt_or_eq_of_le (Nat.le_of_lt_succ hi) with hlt | rfl
    · refine (hd.blocked i hlt).congr fun j _ hj => (hread.kept j).resolve_right fun h => ?_
      have hle : first.bound (i + 1) ≤ first.bound k := hfirst.bound_le hlt
      omega
    · exact hblocked
  · rcases hread.kept j with heq | ⟨hj, hmark⟩
    · rw [heq]
      exact (hd.kept j).imp_right fun h => ⟨by omega, h.2⟩
    · refine .inr ⟨hj.2, ?_⟩
      rcases hd.kept j with heq | h
      · rwa [← heq]
      · exact h.2

theorem link_blocksTo {first d : Draft} (hfirst : first.Laid) (hunlinked : first.Unlinked)
    (h : first.link = .ok d) : BlocksTo first first.sections.size d := by
  refine link_induction ?_ (fun _ _ _ hk hd => linkDocument_blocksTo hfirst hunlinked hk hd) h
  exact ⟨.refl _, fun i hi => absurd hi (Nat.not_lt_zero i), fun j => .inl rfl⟩

theorem BlocksTo.unmarked {first d : Draft} {k j : Nat} (h : BlocksTo first k d)
    (hj : first.marks j = none) : d.marks j = none := by
  rcases h.kept j with heq | ⟨-, hsome⟩
  · rwa [heq]
  · rw [hj] at hsome
    cases hsome

/-! ## Looking references up -/

theorem settle_marks {d d' : Draft} {r : OpenReference} (hr : d.marks r.index = none)
    (h : d.settle r = .ok d') : d'.marks = d.marks := by
  cases settling h with
  | label _ _ => exact marks_setOp hr rfl
  | function _ _ => exact marks_modifyOp fun op _ => by cases op <;> rfl
  | skill _ _ => exact marks_modifyOp fun op _ => by cases op <;> rfl

theorem settleAll_marks (refs : List OpenReference) {d d' : Draft}
    (hrefs : ∀ r ∈ refs, d.marks r.index = none) (h : refs.foldlM settle d = .ok d') :
    d'.marks = d.marks := by
  induction refs generalizing d with
  | nil =>
    cases h
    rfl
  | cons r rest ih =>
    obtain ⟨d₁, h₁, h⟩ := bind_eq_ok h
    obtain ⟨hr, hrest⟩ := List.forall_mem_cons.1 hrefs
    have hmarks := settle_marks hr h₁
    exact (ih (by rwa [hmarks]) h).trans hmarks

end Draft

end Deskhand
