import Deskhand.Proofs.Handlers
import Deskhand.Proofs.Run

/-!
# Pairs of handlers and ends of blocks

In a resolved program the end of a handler is right behind its block, unless the next mark of the
document is another handler: then nobody objects, and its end is left to be the end of the program
(`Program.Answered`). Blocks are paired exactly in the programs without such a repetition
(`Program.answered_of_resolve`), which are not all of them (`Program.not_paired`).
-/

namespace Deskhand

namespace Program

def marks (p : Program) : BlockMarks := fun j => (p.op? j).bind Op.blockMark?

/-- The next mark behind every handler of a document is the end of its block, or another handler; then
its end is left to be that of the program. Every end of a block has its handler. -/
structure Answered (p : Program) (doc : DocumentSpan) : Prop where
  handler : ∀ j args stop, doc.start ≤ j → j < doc.stop →
    p.op? j = some (.exceptionHandler args stop) →
    ∃ k, j < k ∧ k < doc.stop ∧ p.marks.Clear j k ∧
      (p.op? k = some .endException ∧ stop = k + 1 ∧ stop < p.size ∨
        (∃ args' stop', p.op? k = some (.exceptionHandler args' stop')) ∧ stop = sentinel)
  ending : ∀ k, doc.start ≤ k → k < doc.stop → p.op? k = some .endException →
    ∃ j args, doc.start ≤ j ∧ j < k ∧ p.marks.Clear j k ∧
      p.op? j = some (.exceptionHandler args (k + 1))

/-- The next mark behind every handler of a document is the end of its block. -/
def Paired (p : Program) : Prop :=
  ∀ doc ∈ p.documents, ∀ j args stop, doc.start ≤ j → j < doc.stop →
    p.op? j = some (.exceptionHandler args stop) →
    ∃ k, j < k ∧ k < doc.stop ∧ p.marks.Clear j k ∧
      p.op? k = some .endException ∧ stop = k + 1 ∧ stop < p.size

/-- A handler follows another one in a document, and no block ends between them. -/
def Repeats (p : Program) : Prop :=
  ∃ doc ∈ p.documents, ∃ j k, doc.start ≤ j ∧ j < k ∧ k < doc.stop ∧ p.marks.Clear j k ∧
    (∃ args stop, p.op? j = some (.exceptionHandler args stop)) ∧
    ∃ args stop, p.op? k = some (.exceptionHandler args stop)

variable {p : Program}

theorem marks_of_op? {k : Nat} {op : Op} (h : p.op? k = some op) : p.marks k = op.blockMark? := by
  unfold marks
  rw [h]
  rfl

theorem handler_of_marks {k stop : Nat} (h : p.marks k = some (.opens stop)) :
    ∃ args, p.op? k = some (.exceptionHandler args stop) := by
  obtain ⟨op, hop, hmark⟩ := Option.bind_eq_some_iff.1 h
  obtain ⟨args, rfl⟩ := Op.blockMark?_opens hmark
  exact ⟨args, hop⟩

theorem endException_of_marks {k : Nat} (h : p.marks k = some .closes) :
    p.op? k = some .endException := by
  obtain ⟨op, hop, hmark⟩ := Option.bind_eq_some_iff.1 h
  obtain rfl := Op.blockMark?_closes hmark
  exact hop

theorem answered_of_blocked (hp : p.Linked) {doc : DocumentSpan}
    (h : p.marks.Blocked doc.start doc.stop none) : p.Answered doc where
  handler := by
    intro j args stop hj hlt hop
    have hmark : p.marks j = some (.opens stop) := marks_of_op? hop
    obtain ⟨k, hjk, hk, hclear, hanswers⟩ := (h.opened j stop hj hlt hmark).resolve_left nofun
    refine ⟨k, hjk, hk, hclear, ?_⟩
    cases hanswers with
    | own hcloses hstop =>
      have hend := endException_of_marks hcloses
      have hlast : k + 1 ≠ p.size := fun heq => nomatch hp.last k _ hend heq
      have hsize := lt_size_of_op? hend
      exact .inl ⟨hend, hstop, by omega⟩
    | @overtaken other hopens hstop =>
      obtain ⟨args', hop'⟩ := handler_of_marks hopens
      exact .inr ⟨⟨args', other, hop'⟩, hstop⟩
  ending := by
    intro k hk hlt hop
    obtain ⟨j, hj, hjk, hclear, hopens⟩ := h.closed k hk hlt (marks_of_op? hop)
    obtain ⟨args, hop'⟩ := handler_of_marks hopens
    exact ⟨j, args, hj, hjk, hclear, hop'⟩

/-- Two next marks behind an index are the same. -/
theorem next_unique {j k k' : Nat} (hjk : j < k) (hclear : p.marks.Clear j k) {op : Op}
    (hop : p.op? k = some op) (hmark : op.blockMark?.isSome) (hjk' : j < k')
    (hclear' : p.marks.Clear j k') {op' : Op} (hop' : p.op? k' = some op')
    (hmark' : op'.blockMark?.isSome) : k = k' := by
  rw [← marks_of_op? hop] at hmark
  rw [← marks_of_op? hop'] at hmark'
  rcases Nat.lt_trichotomy k k' with hlt | heq | hgt
  · rw [hclear' k hjk hlt] at hmark
    cases hmark
  · exact heq
  · rw [hclear k' hjk' hgt] at hmark'
    cases hmark'

theorem Paired.not_repeats (hpaired : p.Paired) : ¬p.Repeats := by
  rintro ⟨doc, hdoc, j, k, hj, hjk, hk, hclear, ⟨args, stop, hop⟩, args', stop', hop'⟩
  obtain ⟨k', hjk', -, hclear', hend, -⟩ :=
    hpaired doc hdoc j args stop hj (Nat.lt_trans hjk hk) hop
  obtain rfl := next_unique hjk hclear hop' rfl hjk' hclear' hend rfl
  rw [hop'] at hend
  cases hend

theorem paired_iff (h : ∀ doc ∈ p.documents, p.Answered doc) : p.Paired ↔ ¬p.Repeats := by
  constructor
  · exact Paired.not_repeats
  · intro hsingle doc hdoc j args stop hj hlt hop
    obtain ⟨k, hjk, hk, hclear, hown | ⟨hother, -⟩⟩ := (h doc hdoc).handler j args stop hj hlt hop
    · exact ⟨k, hjk, hk, hclear, hown⟩
    · exact absurd ⟨doc, hdoc, j, k, hj, hjk, hk, hclear, ⟨args, stop, hop⟩, hother⟩ hsingle

end Program

namespace Draft

open LinkState

theorem BlocksTo.blocked_document {first d : Draft} (h : BlocksTo first first.sections.size d)
    (hfirst : first.Laid) {doc : DocumentSpan} (hdoc : doc ∈ d.sections.toList.map (·.span)) :
    d.marks.Blocked doc.start doc.stop none := by
  obtain ⟨sec, hsec, rfl⟩ := List.mem_map.1 hdoc
  obtain ⟨k, hk⟩ := Array.getElem?_of_mem (Array.mem_toList_iff.1 hsec)
  obtain ⟨hlt, hstart, hstop⟩ := h.layout.bounds hfirst hk
  rw [hstart, hstop]
  exact h.blocked k hlt

end Draft

/-- In a resolved program every handler of an exception is answered by the next mark in its document,
and every end of a block has its handler; the blocks are paired unless a handler follows another one
with no end between them. A handler that control comes to outside of recovery is passed over to its
end. -/
theorem Program.answered_of_resolve {main : SkillDocument} {library : SkillLibrary} {p : Program}
    (h : resolve main library = .ok p) :
    (∀ doc ∈ p.documents, p.Answered doc) ∧
    (∀ j op, p.op? j = some op → ∃ doc ∈ p.documents, doc.start ≤ j ∧ j < doc.stop) ∧
    (p.Paired ↔ ¬p.Repeats) ∧
    ∀ m : Mission, m.program = p → m.handling = false → ∀ args stop,
      p.op? m.index = some (.exceptionHandler args stop) →
      m.tick = (.ok .completed, { m with index := stop, stepsExecuted := m.stepsExecuted + 1 }) := by
  obtain ⟨hlinked, -⟩ := linked_of_resolve h
  obtain ⟨d₁, d₂, d₃, h₁, h₂, h₃, rfl⟩ := resolve_eq_ok h
  obtain ⟨hlaid, -⟩ := Draft.ofDocuments_laid h₁
  have hunlinked := Draft.ofDocuments_unlinked h₁
  have hblocks := Draft.link_blocksTo hlaid hunlinked h₂
  have hrefs : ∀ r ∈ d₂.references, d₂.marks r.index = none := by
    intro r hr
    rw [hblocks.layout.references] at hr
    exact hblocks.unmarked ((Draft.ofDocuments_drafted h₁).marks_reference hr)
  have hmarks := Draft.settleAll_marks _ hrefs h₃
  have hsections := Draft.settleAll_sections h₃
  have hanswered : ∀ doc ∈ (d₃.finish main).documents, (d₃.finish main).Answered doc := by
    intro doc hdoc
    refine answered_of_blocked hlinked ?_
    change doc ∈ d₃.sections.toList.map (·.span) at hdoc
    change d₃.marks.Blocked doc.start doc.stop none
    rw [hsections] at hdoc
    rw [hmarks]
    exact hblocks.blocked_document hlaid hdoc
  refine ⟨hanswered, fun j op hop => ?_, paired_iff hanswered, ?_⟩
  · have hsize : d₃.size = d₁.size := (Draft.settleAll_settled _
      (Draft.link_linkedTo hlaid h₂).settled h₃).length
    have hj : j < d₁.size := hsize ▸ lt_size_of_op? hop
    change ∃ doc ∈ d₃.sections.toList.map (·.span), _
    rw [hsections]
    exact Draft.exists_document hblocks.layout hlaid hj
  · rintro m hprogram hhandling args stop hop
    rw [← hprogram] at hop
    obtain ⟨i, hi, hkind⟩ := Option.map_eq_some_iff.1 hop
    refine Mission.tick_next hi ?_
    rw [hkind]
    change m.handleException args stop = _
    simp [Mission.handleException, hhandling]

/-! ## A handler that is overtaken -/

/-- A document with two handlers and one end of a block. -/
def overtakenDocument : SkillDocument where
  name := "main"
  header := .empty
  steps := [⟨"step 1", 1, "Exception Handler", []⟩, ⟨"step 2", 2, "Exception Handler", []⟩,
    ⟨"step 3", 3, "End Exception", []⟩]

/-- The program of `overtakenDocument`. -/
def overtakenProgram : Program where
  name := "main"
  skid := ""
  instructions :=
    #[⟨⟨"main", 1, false⟩, .exceptionHandler ⟨"", .null, none, none, none, none⟩ Program.sentinel⟩,
      ⟨⟨"main", 2, false⟩, .exceptionHandler ⟨"", .null, none, none, none, none⟩ 3⟩,
      ⟨⟨"main", 3, false⟩, .endException⟩, ⟨⟨"main", 3, true⟩, .finish⟩]
  functions := []
  skills := [("main", 0)]
  handlers := [("main", 0)]
  documents := [⟨"main", 0, 4⟩]

theorem resolve_overtakenDocument : resolve overtakenDocument .empty = .ok overtakenProgram :=
  resolve_of_sorted rfl (by decide) (by decide) (by decide)

theorem overtakenProgram_repeats : overtakenProgram.Repeats := by
  have hclear : overtakenProgram.marks.Clear 0 1 := fun i hi hlt => absurd hlt (by omega)
  exact ⟨⟨"main", 0, 4⟩, List.mem_singleton_self _, 0, 1, Nat.zero_le _, by decide, by decide, hclear,
    ⟨_, _, rfl⟩, _, _, rfl⟩

/-- A mission that starts with the handler that is overtaken is at the end of the program at once. -/
theorem Program.answered_of_resolve_overtaken :
    overtakenProgram.Answered ⟨"main", 0, 4⟩ ∧
    (Mission.initial overtakenProgram (.plain 0 .empty) RunConfig.usual).tick.2.index =
      Program.sentinel := by
  obtain ⟨hanswered, -, -, hpassed⟩ := answered_of_resolve resolve_overtakenDocument
  refine ⟨hanswered _ (List.mem_singleton_self _), ?_⟩
  rw [hpassed _ rfl rfl _ Program.sentinel rfl]

theorem Program.not_paired : ¬∀ (main : SkillDocument) (library : SkillLibrary) (p : Program),
    resolve main library = .ok p → p.Paired := by
  intro h
  exact (h _ _ _ resolve_overtakenDocument).not_repeats overtakenProgram_repeats

end Deskhand
