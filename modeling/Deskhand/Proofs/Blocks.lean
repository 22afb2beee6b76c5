import Deskhand.Proofs.Nesting
import Mathlib.Data.List.Forall2

/-!
# Blocks of steps

The documents that are built from conditions, loops, functions and actions are the texts of trees
(`Block`). A block has a code, which is what its steps become one by one, and a linked code, in which
the marks of its constructs are jumps. Linking turns the one into the other, since a block is a tree
of constructs (`Block.nest`), so the program of such a document is the linked code of its tree
(`resolve_spelled`).
-/

namespace Deskhand

/-- A tree of steps. The flags say whether it stands in the body of a loop, which it may leave, and
whether it stands in the body of a function, which it may return from. -/
inductive Block : Bool → Bool → Type
  | skip {l f : Bool} : Block l f
  | seq {l f : Bool} (first second : Block l f) : Block l f
  | act {l f : Bool} (kind : String) (args : Entries Value) : Block l f
  | when {l f : Bool} (condition : String) (yes : Block l f) : Block l f
  | choose {l f : Bool} (condition : String) (yes no : Block l f) : Block l f
  | loop {l f : Bool} (guard count counter : String) (body : Block true f) : Block l f
  | leave {f : Bool} : Block true f
  | function {l f : Bool} (name param closing : String) (body : Block false true) : Block l f
  | giveBack {l : Bool} (source : String) : Block l true

/-- The instructions of the code of a step. -/
def StepCode.ops (c : StepCode) : List Op := c.setup.toList ++ [c.op]

namespace Block

variable {l f : Bool}

/-- What stands ahead of a loop: a counted one sets its counter. -/
def loopSetup (guard counter : String) : Option Op :=
  if Text.isBlankText guard then some (RawStep.resetCounter counter) else none

/-- The counter that the end of a loop counts up. -/
def loopCounter (guard counter : String) : Option String :=
  if Text.isBlankText guard then some counter else none

/-- The codes of the steps that a block is written as. -/
def codes : {l f : Bool} → Block l f → List StepCode
  | _, _, .skip => []
  | _, _, .seq first second => first.codes ++ second.codes
  | _, _, .act kind args => [.just (.action kind args)]
  | _, _, .when condition yes =>
    .just (.checkCondition condition Program.sentinel Program.sentinel) :: yes.codes ++
      [.just (.stub .endCondition)]
  | _, _, .choose condition yes no =>
    .just (.checkCondition condition Program.sentinel Program.sentinel) :: yes.codes ++
      .just (.stub .orElse) :: no.codes ++ [.just (.stub .endCondition)]
  | _, _, .loop guard count counter body =>
    ⟨loopSetup guard counter, .loop guard count counter Program.sentinel, none⟩ :: body.codes ++
      [.just (.stub .endLoop)]
  | _, _, .leave => [.just (.stub .breakLoop)]
  | _, _, .function name param closing body =>
    .just (.stub (.startFunction name param)) :: body.codes ++
      [.just (.stub (.endFunction closing))]
  | _, _, .giveBack source => [.just (.giveBack source)]

/-- The steps of a document at a position are those of a block. -/
def Spelled (document : Nat) (steps : List RawStep) (b : Block l f) : Prop :=
  List.Forall₂ (fun s c => s.code document = .ok c) steps b.codes

/-- The number of instructions ahead of the test of a loop. -/
def setupSize (guard : String) : Nat := if Text.isBlankText guard then 1 else 0

/-- The number of instructions of a block. -/
def size : {l f : Bool} → Block l f → Nat
  | _, _, .skip => 0
  | _, _, .seq first second => first.size + second.size
  | _, _, .act .. => 1
  | _, _, .when _ yes => yes.size + 2
  | _, _, .choose _ yes no => yes.size + no.size + 3
  | _, _, .loop guard _ _ body => setupSize guard + body.size + 2
  | _, _, .leave => 1
  | _, _, .function _ _ _ body => body.size + 2
  | _, _, .giveBack _ => 1

/-- The instructions of a block as they are taken up. -/
def raw (b : Block l f) : List Op := b.codes.flatMap StepCode.ops

/-- The linked code of a block at a place: its marks are jumps. A break goes to where the loop
around the block is left to; while that is not known it is a mark. -/
def flat : {l f : Bool} → Block l f → (place : Nat) → (out : Option Nat) → List Op
  | _, _, .skip, _, _ => []
  | _, _, .seq first second, place, out =>
    first.flat place out ++ second.flat (place + first.size) out
  | _, _, .act kind args, _, _ => [.action kind args]
  | _, _, .when condition yes, place, out =>
    let behind := place + yes.size + 2
    .checkCondition condition behind behind :: yes.flat (place + 1) out ++ [.goto behind none]
  | _, _, .choose condition yes no, place, out =>
    let second := place + yes.size + 2
    let behind := second + no.size + 1
    .checkCondition condition second behind :: yes.flat (place + 1) out ++
      .goto behind none :: no.flat second out ++ [.goto behind none]
  | _, _, .loop guard count counter body, place, _ =>
    let head := place + setupSize guard
    let behind := head + body.size + 2
    (loopSetup guard counter).toList ++ .loop guard count counter behind ::
      body.flat (head + 1) (some behind) ++ [.goto head (loopCounter guard counter)]
  | _, _, .leave, _, out =>
    match out with
    | some target => [.goto target none]
    | none => [.stub .breakLoop]
  | _, _, .function _ _ closing body, place, _ =>
    .goto (place + body.size + 2) none :: body.flat (place + 1) none ++
      [.stub (.endFunction closing)]
  | _, _, .giveBack source, _, _ => [.giveBack source]

theorem length_loopSetup (guard counter : String) :
    (loopSetup guard counter).toList.length = setupSize guard := by
  unfold loopSetup setupSize
  split <;> rfl

@[simp] theorem length_flat (b : Block l f) (place : Nat) (out : Option Nat) :
    (b.flat place out).length = b.size := by
  induction b generalizing place out with
  | skip => rfl
  | seq first second ih₁ ih₂ => simp only [flat, size, List.length_append, ih₁, ih₂]
  | act kind args => rfl
  | when condition yes ih => simp [flat, size, ih]
  | choose condition yes no ih₁ ih₂ =>
    simp [flat, size, ih₁, ih₂]
    omega
  | loop guard count counter body ih =>
    simp [flat, size, ih, length_loopSetup]
    omega
  | leave => cases out <;> rfl
  | function name param closing body ih => simp [flat, size, ih]
  | giveBack source => rfl

/-! ## The instructions of the codes -/

@[simp] theorem raw_seq (first second : Block l f) :
    (seq first second).raw = first.raw ++ second.raw := by
  simp only [raw, codes, List.flatMap_append]

@[simp] theorem raw_act (kind : String) (args : Entries Value) :
    (act kind args : Block l f).raw = [.action kind args] := rfl

@[simp] theorem raw_when (condition : String) (yes : Block l f) :
    (when condition yes).raw =
      .checkCondition condition Program.sentinel Program.sentinel :: yes.raw ++
        [.stub .endCondition] := by
  simp [raw, codes, StepCode.ops, StepCode.just]

@[simp] theorem raw_choose (condition : String) (yes no : Block l f) :
    (choose condition yes no).raw =
      .checkCondition condition Program.sentinel Program.sentinel :: yes.raw ++
        .stub .orElse :: no.raw ++ [.stub .endCondition] := by
  simp [raw, codes, StepCode.ops, StepCode.just]

@[simp] theorem raw_loop (guard count counter : String) (body : Block true f) :
    (loop guard count counter body : Block l f).raw =
      (loopSetup guard counter).toList ++ .loop guard count counter Program.sentinel :: body.raw ++
        [.stub .endLoop] := by
  simp [raw, codes, StepCode.ops, StepCode.just]

@[simp] theorem raw_leave : (leave : Block true f).raw = [.stub .breakLoop] := rfl

@[simp] theorem raw_function (name param closing : String) (body : Block false true) :
    (function name param closing body : Block l f).raw =
      .stub (.startFunction name param) :: body.raw ++ [.stub (.endFunction closing)] := by
  simp [raw, codes, StepCode.ops, StepCode.just]

@[simp] theorem raw_giveBack (source : String) :
    (giveBack source : Block l true).raw = [.giveBack source] := rfl

theorem length_raw (b : Block l f) : b.raw.length = b.size := by
  induction b with
  | skip => rfl
  | seq first second ih₁ ih₂ => simp only [raw_seq, size, List.length_append, ih₁, ih₂]
  | act kind args => rfl
  | when condition yes ih => simp [size, ih]
  | choose condition yes no ih₁ ih₂ =>
    simp [size, ih₁, ih₂]
    omega
  | loop guard count counter body ih =>
    simp [size, ih, length_loopSetup]
    omega
  | leave => rfl
  | function name param closing body ih => simp [size, ih]
  | giveBack source => rfl

/-! ## Blocks as trees of constructs -/

/-- The setting of the counter ahead of a loop as a tree. -/
def setupNest (guard counter : String) : Nest l :=
  if Text.isBlankText guard then .plain (RawStep.resetCounter counter) trivial else .skip

/-- A block as a tree of constructs. -/
def nest : {l f : Bool} → Block l f → Nest l
  | _, _, .skip => .skip
  | _, _, .seq first second => .seq first.nest second.nest
  | _, _, .act kind args => .plain (.action kind args) trivial
  | _, _, .when condition yes => .when condition Program.sentinel Program.sentinel yes.nest
  | _, _, .choose condition yes no =>
    .choose condition Program.sentinel Program.sentinel yes.nest no.nest
  | _, _, .loop guard count counter body =>
    .seq (setupNest guard counter) (.loop guard count counter Program.sentinel body.nest)
  | _, _, .leave => .leave
  | _, _, .function name param closing body => .function name param closing body.nest
  | _, _, .giveBack source => .plain (.giveBack source) trivial

theorem size_setupNest (guard counter : String) :
    (setupNest guard counter : Nest l).size = setupSize guard := by
  unfold setupNest setupSize
  split <;> rfl

theorem raw_setupNest (guard counter : String) :
    (setupNest guard counter : Nest l).raw = (loopSetup guard counter).toList := by
  unfold setupNest loopSetup
  split <;> rfl

theorem flat_setupNest (guard counter : String) (place : Nat) (out : Option Nat) :
    (setupNest guard counter : Nest l).flat place out = (loopSetup guard counter).toList := by
  unfold setupNest loopSetup
  split <;> rfl

@[simp] theorem size_nest (b : Block l f) : b.nest.size = b.size := by
  induction b with
  | seq first second ih₁ ih₂ => simp [nest, Nest.size, size, ih₁, ih₂]
  | when condition yes ih => simp [nest, Nest.size, size, ih]
  | choose condition yes no ih₁ ih₂ => simp [nest, Nest.size, size, ih₁, ih₂]
  | loop guard count counter body ih =>
    simp [nest, Nest.size, size, ih, size_setupNest, Nat.add_assoc]
  | function name param closing body ih => simp [nest, Nest.size, size, ih]
  | _ => rfl

@[simp] theorem raw_nest (b : Block l f) : b.nest.raw = b.raw := by
  induction b with
  | seq first second ih₁ ih₂ => simp [nest, Nest.raw, ih₁, ih₂]
  | when condition yes ih => simp [nest, Nest.raw, ih]
  | choose condition yes no ih₁ ih₂ => simp [nest, Nest.raw, ih₁, ih₂]
  | loop guard count counter body ih => simp [nest, Nest.raw, ih, raw_setupNest]
  | function name param closing body ih => simp [nest, Nest.raw, ih]
  | _ => rfl

@[simp] theorem flat_nest (b : Block l f) (place : Nat) (out : Option Nat) :
    b.nest.flat place out = b.flat place out := by
  induction b generalizing place out with
  | seq first second ih₁ ih₂ => simp [nest, Nest.flat, flat, ih₁, ih₂]
  | when condition yes ih => simp [nest, Nest.flat, flat, ih]
  | choose condition yes no ih₁ ih₂ => simp [nest, Nest.flat, flat, ih₁, ih₂]
  | loop guard count counter body ih =>
    simp [nest, Nest.flat, flat, ih, flat_setupNest, size_setupNest, loopCounter]
  | leave => cases out <;> rfl
  | function name param closing body ih => simp [nest, Nest.flat, flat, ih]
  | _ => rfl

/-! ## The program of a block -/

/-- No step of a block has to be looked up. -/
theorem codes_refers (b : Block l f) : ∀ c ∈ b.codes, c.refers = none := by
  have hjust : ∀ op : Op, (StepCode.just op).refers = none := fun _ => rfl
  induction b with
  | skip =>
    intro c hc
    cases hc
  | seq first second ih₁ ih₂ => exact List.forall_mem_append.2 ⟨ih₁, ih₂⟩
  | choose condition yes no ih₁ ih₂ =>
    simpa [codes, hjust, or_imp, forall_and] using ⟨ih₁, ih₂⟩
  | when condition yes ih => simpa [codes, hjust, or_imp, forall_and] using ih
  | loop guard count counter body ih => simpa [codes, hjust, or_imp, forall_and] using ih
  | function name param closing body ih => simpa [codes, hjust, or_imp, forall_and] using ih
  | _ => exact List.forall_mem_singleton.2 rfl

end Block

namespace Draft

/-- A draft to which instructions were added, and nothing that is open. -/
structure Longer (d : Draft) (more : List Op) (d' : Draft) : Prop where
  ops : d'.ops = d.ops ++ more
  references : d'.references = d.references
  sections : d'.sections = d.sections

theorem pushCode_longer (name : String) (document number : Nat) {c : StepCode}
    (hc : c.refers = none) (d : Draft) : d.Longer c.ops (d.pushCode name document number c) := by
  obtain ⟨refs, handlers, heq, hrefs, -⟩ := pushCode_eq name document number c d
  have hsetup : d.Longer c.setup.toList (d.setUp name number c) := by
    unfold setUp
    split
    · next op h => exact ⟨by rw [h]; exact ops_push _ d, rfl, rfl⟩
    · next h => exact ⟨by rw [h]; exact (List.append_nil _).symm, rfl, rfl⟩
  rw [heq]
  refine ⟨?_, ?_, hsetup.sections⟩
  · exact (ops_push _ _).trans (by rw [hsetup.ops, StepCode.ops, List.append_assoc])
  · rcases hrefs with ⟨-, rfl⟩ | ⟨refers, hsome, -⟩
    · exact hsetup.references
    · rw [hc] at hsome
      cases hsome

theorem pushSteps_longer (name : String) {document : Nat} {steps : List RawStep}
    {codes : List StepCode} (h : List.Forall₂ (fun s c => s.code document = .ok c) steps codes)
    (hcodes : ∀ c ∈ codes, c.refers = none) (d : Draft) :
    ∃ d' table, pushSteps name document steps d = .ok (d', table, []) ∧
      d.Longer (codes.flatMap StepCode.ops) d' := by
  induction h generalizing d with
  | nil => exact ⟨d, [], rfl, (List.append_nil _).symm, rfl, rfl⟩
  | @cons s c steps codes hs _ ih =>
    have hc := hcodes c List.mem_cons_self
    have h₁ := pushCode_longer name document s.number hc d
    obtain ⟨d', table, heq, h₂⟩ := ih (fun c' hc' => hcodes c' (List.mem_cons_of_mem _ hc'))
      (d.pushCode name document s.number c)
    refine ⟨d', (s.number, d.size) :: table, ?_, ?_, h₂.references.trans h₁.references,
      h₂.sections.trans h₁.sections⟩
    · have hkey : c.calledSkill? = none := by
        unfold StepCode.calledSkill?
        rw [hc]
      unfold pushSteps
      rw [hs]
      change (pushSteps name document steps (d.pushCode name document s.number c) >>= _) = _
      rw [heq]
      change Except.ok (d', (s.number, d.size) :: table, c.calledSkill?.toList ++ []) = _
      rw [hkey]
      rfl
    · rw [h₂.ops, h₁.ops, List.flatMap_cons, List.append_assoc]

/-- The main document of a block, taken up and not linked yet. -/
structure Written (ops : List Op) (d : Draft) : Prop where
  ops : d.ops = ops
  references : d.references = []
  sections : ∃ sec, d.sections = #[sec] ∧ sec.span.start = 0 ∧ sec.span.stop = d.size

theorem length_ops (d : Draft) : d.ops.length = d.size := by simp [ops, size]

theorem pushDocument_written {l f : Bool} {b : Block l f} {main : SkillDocument}
    (h : b.Spelled 0 main.steps) :
    ∃ d, empty.pushDocument main .finish = .ok (d, []) ∧ d.Written (b.raw ++ [.finish]) := by
  obtain ⟨d, table, hsteps, hd⟩ := pushSteps_longer main.name h b.codes_refers empty
  let last : Instruction :=
    ⟨⟨main.name, (main.steps.getLast?.map (·.number)).getD 0, true⟩, .finish⟩
  let sec : Section := ⟨⟨main.name, 0, (d.push last).size⟩, table, [], []⟩
  refine ⟨{ d.push last with
    sections := (d.push last).sections.push sec
    skills := (d.push last).skills.putNew main.name 0 }, ?_, ?_, hd.references, sec, ?_, rfl, rfl⟩
  · unfold pushDocument
    rw [show empty.sections.size = 0 from rfl, hsteps]
    rfl
  · exact (ops_push last d).trans (by rw [hd.ops]; rfl)
  · exact congrArg (·.push sec) hd.sections

theorem ofDocuments_written {l f : Bool} {b : Block l f} {main : SkillDocument}
    (h : b.Spelled 0 main.steps) (library : SkillLibrary) :
    ∃ d, ofDocuments main library = .ok d ∧ d.Written (b.raw ++ [.finish]) := by
  obtain ⟨d, hdoc, hd⟩ := pushDocument_written h
  refine ⟨if main.header.name = "" then d
    else { d with skills := d.skills.putNew main.header.name 0 }, ?_, ?_⟩
  · unfold ofDocuments
    rw [hdoc]
    rfl
  · split
    · exact hd
    · exact ⟨hd.ops, hd.references, hd.sections⟩

theorem link_written {b : Block false false} {d : Draft}
    (hd : d.Written (b.raw ++ [.finish])) :
    ∃ d', d.link = .ok d' ∧ d'.ops = b.flat 0 none ++ [.finish] ∧ d'.references = [] := by
  obtain ⟨sec, hsec, hstart, hstop⟩ := hd.sections
  have hsize : d.size = b.size + 1 := by
    rw [← length_ops, hd.ops]
    simp [Block.length_raw]
  have hraw : d.ops = [] ++ b.nest.raw ++ [.finish] := by simpa using hd.ops
  obtain ⟨s, m⟩ := b.nest.links 0 ⟨d, [], none⟩ [] [.finish] 0 rfl hraw nofun
  have hops : s.draft.ops = b.flat 0 none ++ [.finish] := by simpa using m.ops
  have hvisit : LinkState.visitFrom 0 0 (b.size + 1) ⟨d, [], none⟩ = .ok s := by
    have hfinish : LinkState.Visits 0 (0 + b.nest.size) 1 s s := .single (m.op?_behind rfl) rfl
    rw [← b.size_nest, m.visits, hfinish 0]
    rfl
  have hclose : s.close = .ok s.draft := by
    unfold LinkState.close
    rw [m.handler, m.constructs]
    rfl
  refine ⟨s.draft, ?_, hops, ?_⟩
  · have hlink : d.linkDocument 0 = .ok s.draft := by
      unfold linkDocument
      rw [hsec]
      change (LinkState.visitFrom 0 sec.span.start (sec.span.stop - sec.span.start)
        ⟨d, [], none⟩ >>= _) = _
      rw [hstart, hstop, hsize, Nat.sub_zero, hvisit]
      exact hclose
    unfold link
    rw [hsec]
    change (d.linkDocument 0 >>= _) = _
    rw [hlink]
    rfl
  · have hlayout := LinkState.visitFrom_keeps (I := fun s => LinkState.SameLayout d s.draft)
      (fun _ _ _ _ hs hv => hs.trans hv.sameLayout) 0 _ (.refl d) hvisit
    rw [hlayout.references, hd.references]

end Draft

/-- A document that is written as a block resolves to the linked code of the block. -/
theorem resolve_spelled {b : Block false false} {main : SkillDocument}
    (h : b.Spelled 0 main.steps) (library : SkillLibrary) :
    ∃ p, resolve main library = .ok p ∧
      p.instructions.toList.map (·.op) = b.flat 0 none ++ [.finish] := by
  obtain ⟨d₁, h₁, hd₁⟩ := Draft.ofDocuments_written h library
  obtain ⟨d₂, h₂, hops, hrefs⟩ := Draft.link_written hd₁
  refine ⟨d₂.finish main, ?_, hops⟩
  unfold resolve
  rw [h₁]
  change (d₁.link >>= _) = _
  rw [h₂]
  change (d₂.references.foldlM Draft.settle d₂ >>= _) = _
  rw [hrefs]
  rfl

end Deskhand
