import Deskhand.Proofs.Calm

/-!
# Resolving preserves meaning

The program of a document that is written as a block does what the block means: it comes to its end
exactly when the reading of the block does, and with the same state of the mission. Control passes
through the code of a block as the block is read (`Block.follows`), and a run that comes to the end of
the program reads every block on its way (`Block.covers`).
-/

namespace Deskhand

open Relation (ReflTransGen)

/-! ## Where the code of a block lies -/

namespace Program

/-- A list of operations is what the instructions from a place on do. -/
def CodeAt (place : Nat) (ops : List Op) (p : Program) : Prop :=
  ∀ j op, ops[j]? = some op → p.op? (place + j) = some op

namespace CodeAt

variable {place : Nat} {op : Op} {ops more : List Op} {p : Program}

theorem head (h : p.CodeAt place (op :: ops)) : p.op? place = some op := h 0 op rfl

theorem tail (h : p.CodeAt place (op :: ops)) : p.CodeAt (place + 1) ops := by
  intro j op' hj
  rw [Nat.add_right_comm]
  exact h (j + 1) op' hj

theorem left (h : p.CodeAt place (ops ++ more)) : p.CodeAt place ops := by
  intro j op hj
  have hlt : j < ops.length := (List.getElem?_eq_some_iff.1 hj).1
  exact h j op (by rw [List.getElem?_append_left hlt, hj])

theorem right (h : p.CodeAt place (ops ++ more)) : p.CodeAt (place + ops.length) more := by
  intro j op hj
  rw [Nat.add_assoc]
  refine h (ops.length + j) op ?_
  rw [List.getElem?_append_right (Nat.le_add_right _ _), Nat.add_sub_cancel_left, hj]

end CodeAt

end Program

namespace Block

open Mission Program

variable {l f : Bool} {p : Program} {place : Nat} {out : Option Nat}

theorem codeAt_seq {first second : Block l f}
    (h : p.CodeAt place ((seq first second).flat place out)) :
    p.CodeAt place (first.flat place out) ∧
      p.CodeAt (place + first.size) (second.flat (place + first.size) out) := by
  have hright := h.right
  rw [length_flat] at hright
  exact ⟨h.left, hright⟩

/-- A head, a body and a closing mark. -/
theorem codeAt_around {body : Block l f} {head close : Op}
    (h : p.CodeAt place (head :: body.flat (place + 1) out ++ [close])) :
    p.op? place = some head ∧ p.CodeAt (place + 1) (body.flat (place + 1) out) ∧
      p.op? (place + 1 + body.size) = some close := by
  have hright := h.tail.right
  rw [length_flat] at hright
  exact ⟨h.head, h.tail.left, hright.head⟩

theorem codeAt_choose {condition : String} {yes no : Block l f}
    (h : p.CodeAt place ((choose condition yes no).flat place out)) :
    let second := place + yes.size + 2
    let behind := second + no.size + 1
    p.op? place = some (.checkCondition condition second behind) ∧
      p.CodeAt (place + 1) (yes.flat (place + 1) out) ∧
      p.op? (place + 1 + yes.size) = some (.goto behind none) ∧
      p.CodeAt second (no.flat second out) ∧ p.op? (second + no.size) = some (.goto behind none) := by
  intro second behind
  have h' : p.CodeAt place ((.checkCondition condition second behind :: yes.flat (place + 1) out ++
    [.goto behind none]) ++ (no.flat second out ++ [.goto behind none])) := by
    simpa [flat, second, behind] using h
  obtain ⟨hhead, hyes, hmark⟩ := codeAt_around h'.left
  have hsecond := h'.right
  simp only [List.length_append, List.length_cons, length_flat, List.length_nil] at hsecond
  have hno := hsecond.right
  rw [length_flat] at hno
  exact ⟨hhead, hyes, hmark, hsecond.left, hno.head⟩

theorem codeAt_loop {guard count counter : String} {body : Block true f}
    (h : p.CodeAt place ((loop guard count counter body : Block l f).flat place out)) :
    let head := place + setupSize guard
    let behind := head + body.size + 2
    p.CodeAt place (loopSetup guard counter).toList ∧
      p.CodeAt head (.loop guard count counter behind :: body.flat (head + 1) (some behind) ++
        [.goto head (loopCounter guard counter)]) := by
  intro head behind
  have h' : p.CodeAt place ((loopSetup guard counter).toList ++
    (.loop guard count counter behind :: body.flat (head + 1) (some behind) ++
      [.goto head (loopCounter guard counter)])) := by
    simpa [flat, head, behind] using h
  have hloop := h'.right
  rw [length_loopSetup] at hloop
  exact ⟨h'.left, hloop⟩

/-! ## From the reading to the run -/

/-- Control passes through the code of a block as its reading says. -/
def Follows (b : Block l f) : Prop :=
  ∀ (place : Nat) (out : Option Nat) (exit : Exit) (m m' : Mission),
    m.program.CodeAt place (b.flat place out) → (l = true → out.isSome) → (m.goTo place).Calm →
    b.Reads place m exit m' →
    ReflTransGen Goes (m.goTo place) (m'.goTo (exit.place (place + b.size) out))

variable {m m' : Mission} {exit : Exit}

/-- A part of a condition is followed by a jump behind the condition. -/
theorem Follows.closed {part : Block l f} (h : part.Follows) {start behind : Nat}
    (hcode : m.program.CodeAt start (part.flat start out)) (hout : l = true → out.isSome)
    (hmark : m.program.op? (start + part.size) = some (.goto behind none))
    (hm : (m.goTo start).Calm)
    (hr : Closed (part.Reads start) (start + part.size) m exit m') :
    ReflTransGen Goes (m.goTo start) (m'.goTo (exit.place behind out)) := by
  cases exit with
  | broke => exact h start out .broke m m' hcode hout hm hr
  | through =>
    obtain ⟨m₁, hpart, hpass⟩ := hr
    have hbody := h start out .through m m₁ hcode hout hm hpart
    have hprogram : m₁.program = m.program := program_of_passes hbody
    rw [← hprogram] at hmark
    have hjump : (m₁.goTo (start + part.size)).Goes (m'.goTo behind) :=
      (goes_jump (hm.passes hbody) hmark).2 ⟨m', hpass, rfl⟩
    exact hbody.tail hjump

theorem follows_seq {first second : Block l f} (h₁ : first.Follows) (h₂ : second.Follows) :
    (seq first second).Follows := by
  intro place out exit m m' hcode hout hm hr
  obtain ⟨hfirst, hsecond⟩ := codeAt_seq hcode
  rcases hr with ⟨rfl, hr⟩ | ⟨m₁, hr₁, hr₂⟩
  · exact h₁ place out .broke m m' hfirst hout hm hr
  · have hp := h₁ place out .through m m₁ hfirst hout hm hr₁
    have hprogram : m₁.program = m.program := program_of_passes hp
    rw [← hprogram] at hsecond
    have hq := h₂ (place + first.size) out exit m₁ m' hsecond hout (hm.passes hp) hr₂
    rw [Nat.add_assoc] at hq
    exact hp.trans hq

/-- Both parts of a condition are entered by its test. -/
theorem goes_check {condition : String} {other behind : Nat} (hm : (m.goTo place).Calm)
    (hop : m.program.op? place = some (.checkCondition condition other behind)) :
    (m.goTo place).Goes m' ↔ ∃ holds m₁,
      m.test? place "Check Condition" (StepM.holds condition) = some (holds, m₁) ∧
      m' = m₁.goTo (if holds then place + 1 else other) := by
  have hp : ∀ d : Mission, d.index = place →
      d.perform (.checkCondition condition other behind) =
        d.follow (do return if ← StepM.holds condition then place + 1 else other) := by
    rintro d rfl
    rfl
  exact goes_test hm hop hp rfl rfl

theorem follows_when {condition : String} {yes : Block l f} (h : yes.Follows) :
    (when condition yes).Follows := by
  intro place out exit m m' hcode hout hm hr
  obtain ⟨hhead, hyes, hmark⟩ := codeAt_around hcode
  obtain ⟨holds, m₁, htest, hr⟩ := hr
  have hgoes := (goes_check hm hhead).2 ⟨holds, m₁, htest, rfl⟩
  have hprogram : m₁.program = m.program := hgoes.program
  rw [← hprogram] at hyes hmark
  cases holds with
  | true => exact .head hgoes (h.closed hyes hout hmark (hm.goes hgoes) hr)
  | false =>
    obtain ⟨rfl, rfl⟩ := hr
    exact .single hgoes

theorem follows_choose {condition : String} {yes no : Block l f} (hy : yes.Follows)
    (hn : no.Follows) : (choose condition yes no).Follows := by
  intro place out exit m m' hcode hout hm hr
  obtain ⟨hhead, hyes, hmark, hno, hend⟩ := codeAt_choose hcode
  obtain ⟨holds, m₁, htest, hr⟩ := hr
  have hgoes := (goes_check hm hhead).2 ⟨holds, m₁, htest, rfl⟩
  have hprogram : m₁.program = m.program := hgoes.program
  rw [← hprogram] at hyes hmark hno hend
  rw [show place + (choose condition yes no).size = place + yes.size + 2 + no.size + 1 by
    simp only [size]
    omega]
  cases holds with
  | true => exact .head hgoes (hy.closed hyes hout hmark (hm.goes hgoes) hr)
  | false => exact .head hgoes (hn.closed hno hout hend (hm.goes hgoes) hr)

theorem goes_loop {guard count counter : String} {stop : Nat} (hm : (m.goTo place).Calm)
    (hop : m.program.op? place = some (.loop guard count counter stop)) :
    (m.goTo place).Goes m' ↔ ∃ holds m₁,
      m.test? place "Repeat" (loopTest guard count counter) = some (holds, m₁) ∧
      m' = m₁.goTo (if holds then place + 1 else stop) := by
  have hp : ∀ d : Mission, d.index = place → d.perform (.loop guard count counter stop) =
      d.follow (do return if ← loopTest guard count counter then place + 1 else stop) := by
    rintro d rfl
    change d.enterLoop guard count counter stop = _
    unfold enterLoop loopTest
    split <;> rfl
  exact goes_test hm hop hp rfl rfl

/-- Control passes what stands ahead of a loop. -/
theorem passes_setUp {guard counter : String} (hm : (m.goTo place).Calm)
    (hcode : m.program.CodeAt place (loopSetup guard counter).toList)
    (h : setUp? place guard counter m = some m') :
    ReflTransGen Goes (m.goTo place) (m'.goTo (place + setupSize guard)) := by
  unfold loopSetup at hcode
  unfold setUp? at h
  unfold setupSize
  by_cases hguard : Text.isBlankText guard
  · rw [if_pos hguard] at hcode h ⊢
    exact .single ((goes_act hm hcode.head).2 ⟨m', h, rfl⟩)
  · rw [if_neg hguard] at h ⊢
    cases h
    exact .refl

theorem follows_loop {guard count counter : String} {body : Block true f} (h : body.Follows) :
    (loop guard count counter body : Block l f).Follows := by
  intro place out exit m m' hcode _ hm hr
  obtain ⟨hsetup, hloop⟩ := codeAt_loop hcode
  obtain ⟨hhead, hbody, hmark⟩ := codeAt_around hloop
  obtain ⟨rfl, m₁, hset, hrounds⟩ := hr
  have hp := passes_setUp hm hsetup hset
  have hprogram : m₁.program = m.program := program_of_passes hp
  rw [← hprogram] at hhead hbody hmark
  refine hp.trans ?_
  have hcalm := hm.passes hp
  clear hp hprogram hset hsetup hcode hm hloop
  rw [show Exit.place (place + (loop guard count counter body : Block l f).size) out .through =
    place + setupSize guard + body.size + 2 by simp only [Exit.place, size]; omega]
  generalize place + setupSize guard = head at *
  induction hrounds with
  | done ht => exact .single ((goes_loop hcalm hhead).2 ⟨false, _, ht, rfl⟩)
  | @broke m m₁ m' ht hb =>
    have hgoes := (goes_loop hcalm hhead).2 ⟨true, m₁, ht, rfl⟩
    have hprogram : m₁.program = m.program := hgoes.program
    rw [← hprogram] at hbody
    exact .head hgoes (h (head + 1) _ .broke m₁ m' hbody (fun _ => rfl) (hcalm.goes hgoes) hb)
  | @again m m₁ m₂ m₃ m' ht hb hc _ ih =>
    have hgoes := (goes_loop hcalm hhead).2 ⟨true, m₁, ht, rfl⟩
    have hprogram : m₁.program = m.program := hgoes.program
    rw [← hprogram] at hhead hbody hmark
    have hcalm₁ : (m₁.goTo (head + 1)).Calm := hcalm.goes hgoes
    have hround := h (head + 1) _ .through m₁ m₂ hbody (fun _ => rfl) hcalm₁ hb
    have hcalm₂ : (m₂.goTo (head + 1 + body.size)).Calm := hcalm₁.passes hround
    rw [← program_of_passes hround] at hhead hbody hmark
    obtain ⟨m₂', hpass, rfl⟩ := Option.map_eq_some_iff.1 hc
    have hback := (goes_jump hcalm₂ hmark).2 ⟨m₂', hpass, rfl⟩
    have hprogram' : (m₂'.countUp (loopCounter guard counter)).program = m₂.program :=
      hback.program
    rw [← hprogram'] at hhead hbody hmark
    exact .head hgoes ((hround.tail hback).trans (ih hmark hbody hhead (hcalm₂.goes hback)))

/-- Control passes through every block as it is read. -/
theorem follows (b : Block l f) : b.Follows := by
  induction b with
  | skip =>
    rintro place out exit m m' - - - ⟨rfl, rfl⟩
    exact .refl
  | seq first second ih₁ ih₂ => exact follows_seq ih₁ ih₂
  | act kind args =>
    rintro place out exit m m' hcode - hm ⟨rfl, hr⟩
    exact .single ((goes_act hm hcode.head).2 ⟨m', hr, rfl⟩)
  | when condition yes ih => exact follows_when ih
  | choose condition yes no ih₁ ih₂ => exact follows_choose ih₁ ih₂
  | loop guard count counter body ih => exact follows_loop ih
  | leave =>
    rintro place out exit m m' hcode hout hm ⟨rfl, hr⟩
    obtain ⟨target, rfl⟩ := Option.isSome_iff_exists.1 (hout rfl)
    exact .single ((goes_jump hm hcode.head).2 ⟨m', hr, rfl⟩)
  | function name param closing body ih =>
    rintro place out exit m m' hcode - hm ⟨rfl, hr⟩
    exact .single ((goes_jump hm hcode.head).2 ⟨m', hr, rfl⟩)
  | giveBack source =>
    intro place out exit m m' _ _ _ hr
    cases hr

/-! ## From the run to the reading -/

/-- A run through the code of a block that comes to the end of the program begins with a reading of the
block. -/
def Covers (b : Block l f) : Prop :=
  ∀ (n place : Nat) (out : Option Nat) (m final : Mission),
    m.program.CodeAt place (b.flat place out) → (l = true → out.isSome) → (m.goTo place).Calm →
    (m.goTo place).FinishesIn n final →
    ∃ exit m' k, k ≤ n ∧ b.Reads place m exit m' ∧
      (m'.goTo (exit.place (place + b.size) out)).FinishesIn k final

variable {n : Nat} {op : Op} {final : Mission}

/-- Where no program ends, a run that comes to the end goes on. -/
theorem goes_of_finishesIn (hm : (m.goTo place).Calm) (hop : m.program.op? place = some op)
    (hne : op ≠ .finish) (h : (m.goTo place).FinishesIn n final) :
    ∃ m₁ k, n = k + 1 ∧ (m.goTo place).Goes m₁ ∧ m₁.FinishesIn k final := by
  cases n with
  | zero =>
    obtain ⟨r, hb, hfinish, -⟩ := h
    have hr := (boundary_goTo hm (lt_size_of_op? hop)).1 hb
    rw [op?_of_arrive hop hr] at hfinish
    exact absurd (Option.some.inj hfinish) hne
  | succ n =>
    obtain ⟨m₁, hgoes, h⟩ := h
    exact ⟨m₁, n, rfl, hgoes, h⟩

/-- What control has passed through the code of a block. -/
theorem Reads.calm {b : Block l f} (h : b.Reads place m exit m')
    (hcode : m.program.CodeAt place (b.flat place out)) (hout : l = true → out.isSome)
    (hm : (m.goTo place).Calm) :
    (m'.goTo (exit.place (place + b.size) out)).Calm ∧ m'.program = m.program :=
  have hp := b.follows place out exit m m' hcode hout hm h
  ⟨hm.passes hp, program_of_passes hp⟩

theorem Covers.closed {part : Block l f} (h : part.Covers) {start behind : Nat}
    (hcode : m.program.CodeAt start (part.flat start out)) (hout : l = true → out.isSome)
    (hmark : m.program.op? (start + part.size) = some (.goto behind none))
    (hm : (m.goTo start).Calm) (hn : (m.goTo start).FinishesIn n final) :
    ∃ exit m' k, k ≤ n ∧ Closed (part.Reads start) (start + part.size) m exit m' ∧
      (m'.goTo (exit.place behind out)).FinishesIn k final := by
  obtain ⟨exit, m₁, k, hk, hr, hfinish⟩ := h n start out m final hcode hout hm hn
  cases exit with
  | broke => exact ⟨.broke, m₁, k, hk, hr, hfinish⟩
  | through =>
    obtain ⟨hcalm, hprogram⟩ := hr.calm hcode hout hm
    rw [← hprogram] at hmark
    obtain ⟨m₂, j, rfl, hgoes, hfinish⟩ := goes_of_finishesIn hcalm hmark nofun hfinish
    obtain ⟨m', hpass, rfl⟩ := (goes_jump hcalm hmark).1 hgoes
    exact ⟨.through, m', j, Nat.le_of_succ_le hk, ⟨m₁, hr, hpass⟩, hfinish⟩

theorem covers_seq {first second : Block l f} (h₁ : first.Covers) (h₂ : second.Covers) :
    (seq first second).Covers := by
  intro n place out m final hcode hout hm hn
  obtain ⟨hfirst, hsecond⟩ := codeAt_seq hcode
  obtain ⟨exit, m₁, k, hk, hr, hfinish⟩ := h₁ n place out m final hfirst hout hm hn
  cases exit with
  | broke => exact ⟨.broke, m₁, k, hk, .inl ⟨rfl, hr⟩, hfinish⟩
  | through =>
    obtain ⟨hcalm, hprogram⟩ := hr.calm hfirst hout hm
    rw [← hprogram] at hsecond
    obtain ⟨exit, m', j, hj, hr', hfinish⟩ :=
      h₂ k (place + first.size) out m₁ final hsecond hout hcalm hfinish
    rw [Nat.add_assoc] at hfinish
    exact ⟨exit, m', j, Nat.le_trans hj hk, .inr ⟨m₁, hr, hr'⟩, hfinish⟩

theorem covers_when {condition : String} {yes : Block l f} (h : yes.Covers) :
    (when condition yes).Covers := by
  intro n place out m final hcode hout hm hn
  obtain ⟨hhead, hyes, hmark⟩ := codeAt_around hcode
  obtain ⟨m₀, k, rfl, hgoes, hfinish⟩ := goes_of_finishesIn hm hhead nofun hn
  obtain ⟨holds, m₁, htest, rfl⟩ := (goes_check hm hhead).1 hgoes
  have hprogram : m₁.program = m.program := hgoes.program
  rw [← hprogram] at hyes hmark
  cases holds with
  | true =>
    obtain ⟨exit, m', j, hj, hr, hfinish⟩ := h.closed hyes hout hmark (hm.goes hgoes) hfinish
    exact ⟨exit, m', j, Nat.le_succ_of_le hj, ⟨true, m₁, htest, hr⟩, hfinish⟩
  | false =>
    exact ⟨.through, m₁, k, Nat.le_succ k, ⟨false, m₁, htest, rfl, rfl⟩, hfinish⟩

theorem covers_choose {condition : String} {yes no : Block l f} (hy : yes.Covers)
    (hn : no.Covers) : (choose condition yes no).Covers := by
  intro n place out m final hcode hout hm hfinish
  obtain ⟨hhead, hyes, hmark, hno, hend⟩ := codeAt_choose hcode
  obtain ⟨m₀, k, rfl, hgoes, hfinish⟩ := goes_of_finishesIn hm hhead nofun hfinish
  obtain ⟨holds, m₁, htest, rfl⟩ := (goes_check hm hhead).1 hgoes
  have hprogram : m₁.program = m.program := hgoes.program
  rw [← hprogram] at hyes hmark hno hend
  rw [show place + (choose condition yes no).size = place + yes.size + 2 + no.size + 1 by
    simp only [size]
    omega]
  cases holds with
  | true =>
    obtain ⟨exit, m', j, hj, hr, hfinish⟩ := hy.closed hyes hout hmark (hm.goes hgoes) hfinish
    exact ⟨exit, m', j, Nat.le_succ_of_le hj, ⟨true, m₁, htest, hr⟩, hfinish⟩
  | false =>
    obtain ⟨exit, m', j, hj, hr, hfinish⟩ := hn.closed hno hout hend (hm.goes hgoes) hfinish
    exact ⟨exit, m', j, Nat.le_succ_of_le hj, ⟨false, m₁, htest, hr⟩, hfinish⟩

theorem covers_setUp {guard counter : String} (hm : (m.goTo place).Calm)
    (hcode : m.program.CodeAt place (loopSetup guard counter).toList)
    (h : (m.goTo place).FinishesIn n final) :
    ∃ m₁ k, k ≤ n ∧ setUp? place guard counter m = some m₁ ∧
      (m₁.goTo (place + setupSize guard)).FinishesIn k final := by
  unfold loopSetup at hcode
  unfold setUp? setupSize
  by_cases hguard : Text.isBlankText guard
  · rw [if_pos hguard] at hcode
    rw [if_pos hguard, if_pos hguard]
    obtain ⟨m₀, k, rfl, hgoes, hfinish⟩ := goes_of_finishesIn hm hcode.head nofun h
    obtain ⟨m₁, hact, rfl⟩ := (goes_act hm hcode.head).1 hgoes
    exact ⟨m₁, k, Nat.le_succ k, hact, hfinish⟩
  · rw [if_neg hguard, if_neg hguard]
    exact ⟨m, n, Nat.le_refl n, rfl, h⟩

/-- The rounds of a loop are read off a run by induction on its length: every round takes a turn. -/
theorem covers_rounds {guard count counter : String} {body : Block true f} (hbody : body.Covers)
    {head : Nat} (hcode : p.CodeAt head (.loop guard count counter (head + body.size + 2) ::
      body.flat (head + 1) (some (head + body.size + 2)) ++
        [.goto head (loopCounter guard counter)]))
    (hprogram : m.program = p) (hm : (m.goTo head).Calm) (hn : (m.goTo head).FinishesIn n final) :
    ∃ m' k, k ≤ n ∧ Rounds (test? head "Repeat" (loopTest guard count counter))
        (body.Reads (head + 1))
        (fun m => (m.pass? (head + 1 + body.size)).map (countUp (loopCounter guard counter))) m m' ∧
      (m'.goTo (head + body.size + 2)).FinishesIn k final := by
  induction n using Nat.strongRecOn generalizing m with
  | ind n ih =>
    subst hprogram
    obtain ⟨hhead, hinside, hmark⟩ := codeAt_around hcode
    obtain ⟨m₀, k₀, rfl, hgoes, hfinish⟩ := goes_of_finishesIn hm hhead nofun hn
    obtain ⟨holds, m₁, htest, rfl⟩ := (goes_loop hm hhead).1 hgoes
    have hprogram : m₁.program = m.program := hgoes.program
    rw [← hprogram] at hinside hmark
    cases holds with
    | false => exact ⟨m₁, k₀, Nat.le_succ k₀, .done htest, hfinish⟩
    | true =>
      have hcalm : (m₁.goTo (head + 1)).Calm := hm.goes hgoes
      obtain ⟨exit, m₂, k, hk, hr, hfinish⟩ :=
        hbody k₀ (head + 1) _ m₁ final hinside (fun _ => rfl) hcalm hfinish
      cases exit with
      | broke => exact ⟨m₂, k, Nat.le_succ_of_le hk, .broke htest hr, hfinish⟩
      | through =>
        obtain ⟨hcalm₂, hprogram₂⟩ := hr.calm hinside (fun _ => rfl) hcalm
        rw [← hprogram₂] at hmark
        obtain ⟨m₃, j, rfl, hback, hfinish⟩ := goes_of_finishesIn hcalm₂ hmark nofun hfinish
        obtain ⟨m₄, hpass, rfl⟩ := (goes_jump hcalm₂ hmark).1 hback
        have hprogram₄ : (m₄.countUp (loopCounter guard counter)).program = m₂.program :=
          hback.program
        obtain ⟨m', i, hi, hrounds, hfinish⟩ := ih j (by omega)
          (hprogram₄.trans (hprogram₂.trans hprogram)) (hcalm₂.goes hback) hfinish
        refine ⟨m', i, by omega, .again htest hr ?_ hrounds, hfinish⟩
        exact Option.map_eq_some_iff.2 ⟨m₄, hpass, rfl⟩

theorem covers_loop {guard count counter : String} {body : Block true f} (h : body.Covers) :
    (loop guard count counter body : Block l f).Covers := by
  intro n place out m final hcode _ hm hn
  obtain ⟨hsetup, hloop⟩ := codeAt_loop hcode
  obtain ⟨m₁, k, hk, hset, hfinish⟩ := covers_setUp hm hsetup hn
  have hp := passes_setUp hm hsetup hset
  obtain ⟨m', j, hj, hrounds, hfinish⟩ :=
    covers_rounds h hloop (program_of_passes hp) (hm.passes hp) hfinish
  refine ⟨.through, m', j, Nat.le_trans hj hk, ⟨rfl, m₁, hset, hrounds⟩, ?_⟩
  rwa [show Exit.place (place + (loop guard count counter body : Block l f).size) out .through =
    place + setupSize guard + body.size + 2 by simp only [Exit.place, size]; omega]

/-- A run that comes to the end reads every block on its way. -/
theorem covers (b : Block l false) : b.Covers := by
  have hcovers : ∀ {l f : Bool} (b : Block l f), f = false → b.Covers := by
    intro l f b hf
    induction b with
    | skip =>
      intro n place out m final _ _ _ hn
      exact ⟨.through, m, n, Nat.le_refl n, ⟨rfl, rfl⟩, hn⟩
    | seq first second ih₁ ih₂ => exact covers_seq (ih₁ hf) (ih₂ hf)
    | act kind args =>
      intro n place out m final hcode _ hm hn
      obtain ⟨m₀, k, rfl, hgoes, hfinish⟩ := goes_of_finishesIn hm hcode.head nofun hn
      obtain ⟨m₁, hact, rfl⟩ := (goes_act hm hcode.head).1 hgoes
      exact ⟨.through, m₁, k, Nat.le_succ k, ⟨rfl, hact⟩, hfinish⟩
    | when condition yes ih => exact covers_when (ih hf)
    | choose condition yes no ih₁ ih₂ => exact covers_choose (ih₁ hf) (ih₂ hf)
    | loop guard count counter body ih => exact covers_loop (ih hf)
    | leave =>
      intro n place out m final hcode hout hm hn
      obtain ⟨target, rfl⟩ := Option.isSome_iff_exists.1 (hout rfl)
      obtain ⟨m₀, k, rfl, hgoes, hfinish⟩ := goes_of_finishesIn hm hcode.head nofun hn
      obtain ⟨m₁, hpass, rfl⟩ := (goes_jump hm hcode.head).1 hgoes
      exact ⟨.broke, m₁, k, Nat.le_succ k, ⟨rfl, hpass⟩, hfinish⟩
    | function name param closing body ih =>
      intro n place out m final hcode _ hm hn
      obtain ⟨m₀, k, rfl, hgoes, hfinish⟩ := goes_of_finishesIn hm hcode.head nofun hn
      obtain ⟨m₁, hpass, rfl⟩ := (goes_jump hm hcode.head).1 hgoes
      exact ⟨.through, m₁, k, Nat.le_succ k, ⟨rfl, hpass⟩, hfinish⟩
    | giveBack source => cases hf
  exact hcovers b rfl

end Block

namespace Mission

/-! ## The whole document -/

variable {n : Nat} {m m' : Mission}

/-- The end of a program is executed in one turn, and then nothing is left to run. -/
theorem finishesIn_zero (h : m.FinishesIn 0 m') : m.turn = (.goOn, m') ∧ m'.isDone = true := by
  obtain ⟨r, hb, hop, rfl⟩ := h
  have hstep : r.step = (.goOn, r.counted.goTo Program.sentinel) := step_next hop rfl
  have hturn : m.turn = (.goOn, r.counted.goTo Program.sentinel) := by
    rw [turn_of_ready hb]
    exact hstep
  rw [hturn]
  exact ⟨rfl, rfl⟩

/-- A mission that comes to the end of its program is reported on as one that is over. -/
theorem run_of_finishes (h : m.Finishes m') :
    ∃ fuel, m.run fuel = some (m'.report false, m') := by
  obtain ⟨n, hn⟩ := h
  induction n generalizing m with
  | zero =>
    obtain ⟨hturn, hdone⟩ := finishesIn_zero hn
    refine ⟨2, ?_⟩
    unfold run
    rw [hturn]
    dsimp only
    unfold run
    rw [turn_of_isDone hdone]
  | succ n ih =>
    obtain ⟨m₁, hgoes, hn⟩ := hn
    obtain ⟨fuel, hrun⟩ := ih hn
    refine ⟨fuel + 1, ?_⟩
    unfold run
    rw [show m.turn = (.goOn, m₁) from hgoes]
    exact hrun

theorem finishes_of_passes (hp : ReflTransGen Goes m m') {final : Mission}
    (h : m'.Finishes final) : m.Finishes final := by
  induction hp using ReflTransGen.head_induction_on with
  | refl => exact h
  | head hgoes _ ih =>
    obtain ⟨n, hn⟩ := ih
    exact ⟨n + 1, _, hgoes, hn⟩

/-- A mission that stands at the end of its program passes it. -/
theorem finishesIn_finish {place : Nat} (hm : (m.goTo place).Calm)
    (hop : m.program.op? place = some .finish) :
    (m.goTo place).FinishesIn n m' ↔
      n = 0 ∧ ∃ m₁, m.pass? place = some m₁ ∧ m' = m₁.goTo Program.sentinel := by
  have hturn : ∀ d, m.arrive? place = some d →
      (m.goTo place).FinishesIn 0 (d.counted.goTo Program.sentinel) := by
    intro d hd
    have hb := (boundary_goTo hm (Program.lt_size_of_op? hop)).2 hd
    have hop' := op?_of_arrive hop hd
    refine ⟨d, hb, hop', ?_⟩
    rw [turn_of_ready hb, step_next hop' rfl]
  constructor
  · intro h
    cases n with
    | zero =>
      obtain ⟨r, hb, -, rfl⟩ := h
      have hr := (boundary_goTo hm (Program.lt_size_of_op? hop)).1 hb
      refine ⟨rfl, r.counted, Option.map_eq_some_iff.2 ⟨r, hr, rfl⟩, ?_⟩
      rw [(finishesIn_zero (hturn r hr)).1]
    | succ n =>
      obtain ⟨m₁, hgoes, h⟩ := h
      obtain ⟨d, hd, -⟩ := (goes_goTo hm (Program.lt_size_of_op? hop)).1 hgoes
      obtain ⟨hlast, hdone⟩ := finishesIn_zero (hturn d hd)
      cases hgoes.symm.trans hlast
      cases n with
      | zero =>
        obtain ⟨r, hb, -⟩ := h
        rw [not_isDone_of_ready hb] at hdone
        cases hdone
      | succ n =>
        obtain ⟨m₂, hgoes, -⟩ := h
        cases hgoes.symm.trans (turn_of_isDone hdone)
  · rintro ⟨rfl, m₁, hpass, rfl⟩
    obtain ⟨d, hd, rfl⟩ := Option.map_eq_some_iff.1 hpass
    exact hturn d hd

/-- The linked code of a block comes to its end as the block is read. -/
theorem finishes_iff_means {b : Block false false} (hm : m.Calm) (hindex : m.index = 0)
    (hcode : m.program.CodeAt 0 (b.flat 0 none ++ [.finish])) : m.Finishes m' ↔ b.Means m m' := by
  have hm' : (m.goTo 0).Calm := by
    rw [goTo, ← hindex]
    exact hm
  have hfinish := hcode.right.head
  rw [Block.length_flat] at hfinish
  have hstart : m.Finishes m' ↔ (m.goTo 0).Finishes m' := by
    rw [goTo, ← hindex]
  rw [hstart]
  constructor
  · rintro ⟨n, hn⟩
    obtain ⟨exit, m₁, k, -, hr, hend⟩ := b.covers n 0 none m m' hcode.left nofun hm' hn
    cases exit with
    | broke => cases hr.inLoop
    | through =>
      obtain ⟨hcalm, hprogram⟩ := hr.calm hcode.left nofun hm'
      rw [← hprogram] at hfinish
      obtain ⟨-, m₂, hpass, rfl⟩ := (finishesIn_finish hcalm hfinish).1 hend
      rw [Nat.zero_add] at hpass
      exact ⟨m₁, m₂, hr, hpass, rfl⟩
  · rintro ⟨m₁, m₂, hr, hpass, rfl⟩
    obtain ⟨hcalm, hprogram⟩ := hr.calm hcode.left nofun hm'
    rw [← hprogram] at hfinish
    rw [← Nat.zero_add b.size] at hpass
    refine finishes_of_passes (b.follows 0 none .through m m₁ hcode.left nofun hm' hr) ⟨0, ?_⟩
    exact (finishesIn_finish hcalm hfinish).2 ⟨rfl, m₂, hpass, rfl⟩

/-- A function that nobody calls, with a loop that is left at once, and an action behind it. -/
def fallingBlock : Block false false :=
  .seq (.function "f" "" "f" (.loop "x" "" "lc_0_2" .leave)) (.act "Halt" [])

def fallingDocument : SkillDocument where
  name := "main"
  header := .empty
  steps :=
    [⟨"step 1", 1, "Stub", [("stub_name", .text "start function"), ("func_name", .text "f")]⟩,
      ⟨"step 2", 2, "Repeat", [("until", .text "x")]⟩,
      ⟨"step 3", 3, "Stub", [("stub_name", .text "break")]⟩,
      ⟨"step 4", 4, "Stub", [("stub_name", .text "end loop")]⟩,
      ⟨"step 5", 5, "Stub", [("stub_name", .text "end function"), ("func_name", .text "f")]⟩,
      ⟨"step 6", 6, "Halt", []⟩]

theorem fallingDocument_spelled : fallingBlock.Spelled 0 fallingDocument.steps :=
  .cons rfl (.cons rfl (.cons rfl (.cons rfl (.cons rfl (.cons rfl .nil)))))

/-- The program of `fallingDocument`. -/
def fallingProgram : Program where
  name := "main"
  skid := ""
  instructions := #[⟨⟨"main", 1, false⟩, .goto 5 none⟩, ⟨⟨"main", 2, false⟩, .loop "x" "" "lc_0_2" 4⟩,
    ⟨⟨"main", 3, false⟩, .goto 4 none⟩, ⟨⟨"main", 4, false⟩, .goto 1 none⟩,
    ⟨⟨"main", 5, false⟩, .stub (.endFunction "f")⟩, ⟨⟨"main", 6, false⟩, .action "Halt" []⟩,
    ⟨⟨"main", 6, true⟩, .finish⟩]
  functions := [("f", 1)]
  skills := [("main", 0)]
  handlers := []
  documents := [⟨"main", 0, 7⟩]

theorem resolve_fallingDocument : resolve fallingDocument .empty = .ok fallingProgram :=
  resolve_of_sorted rfl (by decide) (by decide) (by decide)

/-- The mission of `fallingProgram` in a world where nothing happens. -/
def fallingMission : Mission := initial fallingProgram (.plain 0 .empty) .usual

/-- It is over after three turns. -/
theorem fallingMission_over (n : Nat) : fallingMission.after (n + 3) = fallingMission.after 3 := by
  rw [Nat.add_comm, after_add]
  exact after_of_isDone rfl n

theorem fallingMission_calm : fallingMission.Calm where
  unlimited := rfl
  uncancelled n _ hdone := by
    rcases n with _ | _ | _ | n
    · rfl
    · rfl
    · rfl
    · rw [fallingMission_over] at hdone
      cases hdone
  quiet n _ := by
    rcases n with _ | _ | _ | n
    · rfl
    · rfl
    · rfl
    · rw [fallingMission_over]
      rfl

end Mission

end Deskhand
