import Mathlib.Logic.Function.Basic
import Deskhand.Program.Basic

/-!
# Marks of exception blocks

What a list of handlers and ends of blocks comes to when at most one handler is open at a time
(`BlockMarks.Blocked`): an end of a block closes the handler that is open, a handler takes its place.
So every handler that is not open any more is answered by the mark next to it.
-/

namespace Deskhand

/-! ## Marks -/

/-- A mark of a handler's block. -/
inductive BlockMark where
  /-- The handler, with the index behind its block. -/
  | opens (stop : Nat)
  | closes

/-- The mark that an operation is. -/
def Op.blockMark? : Op → Option BlockMark
  | exceptionHandler _ stop => some (.opens stop)
  | endException => some .closes
  | _ => none

/-- The marks at all indices. -/
abbrev BlockMarks : Type := Nat → Option BlockMark

namespace BlockMarks

/-- No mark stands between two indices. -/
def Clear (marks : BlockMarks) (j k : Nat) : Prop := ∀ i, j < i → i < k → marks i = none

/-- The mark at `k` answers a handler that ends at `stop`. -/
inductive Answers (marks : BlockMarks) (stop k : Nat) : Prop
  | own (hmark : marks k = some .closes) (hstop : stop = k + 1)
  | overtaken {other : Nat} (hmark : marks k = some (.opens other))
    (hstop : stop = Program.sentinel)

/-- The blocks of a range, in which a handler may still be open: every other one is answered by the
next mark, and every end has its handler. -/
structure Blocked (marks : BlockMarks) (start stop : Nat) (handler : Option Nat) : Prop where
  opened : ∀ j last, start ≤ j → j < stop → marks j = some (.opens last) →
    handler = some j ∨ ∃ k, j < k ∧ k < stop ∧ marks.Clear j k ∧ marks.Answers last k
  closed : ∀ k, start ≤ k → k < stop → marks k = some .closes →
    ∃ j, start ≤ j ∧ j < k ∧ marks.Clear j k ∧ marks j = some (.opens (k + 1))
  handler : ∀ j, handler = some j → start ≤ j ∧ j < stop ∧
    marks j = some (.opens Program.sentinel) ∧ marks.Clear j stop

/-- A handler gets its end. -/
def give (marks : BlockMarks) (j stop : Nat) : BlockMarks :=
  Function.update marks j (some (.opens stop))

theorem give_self (marks : BlockMarks) (j stop : Nat) :
    marks.give j stop j = some (.opens stop) := Function.update_self ..

theorem give_of_ne {marks : BlockMarks} {i j stop : Nat} (h : i ≠ j) :
    marks.give j stop i = marks i := Function.update_of_ne h ..

section Give

variable {marks : BlockMarks} {i j k stop old : Nat}

theorem Clear.give (h : marks.Clear i k) (hopen : marks j = some (.opens old)) :
    (marks.give j stop).Clear i k := by
  intro x hix hxk
  have hne : x ≠ j := by
    rintro rfl
    rw [h x hix hxk] at hopen
    cases hopen
  rw [give_of_ne hne]
  exact h x hix hxk

theorem Answers.give {last : Nat} (h : marks.Answers last k) (hopen : marks j = some (.opens old)) :
    (marks.give j stop).Answers last k := by
  by_cases hkj : k = j
  · subst hkj
    cases h with
    | own hcloses hlast =>
      rw [hopen] at hcloses
      cases hcloses
    | overtaken hother hlast => exact .overtaken (give_self ..) hlast
  · have hkept : marks.give j stop k = marks k := give_of_ne hkj
    cases h with
    | own hcloses hlast => exact .own (hkept.trans hcloses) hlast
    | overtaken hother hlast => exact .overtaken (hkept.trans hother) hlast

end Give

namespace Blocked

variable {marks marks' : BlockMarks} {start stop : Nat} {handler : Option Nat}

theorem empty (marks : BlockMarks) (start : Nat) : marks.Blocked start start none :=
  ⟨fun _ _ hle hlt => absurd hlt (by omega), fun _ hle hlt => absurd hlt (by omega), nofun⟩

theorem congr (h : marks.Blocked start stop none)
    (heq : ∀ j, start ≤ j → j < stop → marks' j = marks j) : marks'.Blocked start stop none where
  opened := by
    intro j last hj hlt hmark
    rw [heq j hj hlt] at hmark
    obtain ⟨k, hjk, hk, hclear, hanswers⟩ := (h.opened j last hj hlt hmark).resolve_left nofun
    have hmark' : marks' k = marks k := heq k (by omega) hk
    refine .inr ⟨k, hjk, hk, fun i hji hik => ?_, ?_⟩
    · rw [heq i (by omega) (by omega)]
      exact hclear i hji hik
    · cases hanswers with
      | own hmark hstop => exact .own (hmark'.trans hmark) hstop
      | overtaken hmark hstop => exact .overtaken (hmark'.trans hmark) hstop
  closed := by
    intro k hk hlt hmark
    rw [heq k hk hlt] at hmark
    obtain ⟨j, hj, hjk, hclear, hopens⟩ := h.closed k hk hlt hmark
    refine ⟨j, hj, hjk, fun i hji hik => ?_, ?_⟩
    · rw [heq i (by omega) (by omega)]
      exact hclear i hji hik
    · rw [heq j hj (by omega)]
      exact hopens
  handler := nofun

/-- Instructions without a mark go on with the blocks. -/
theorem extend (h : marks.Blocked start stop handler) {stop' : Nat} (hle : stop ≤ stop')
    (hnone : ∀ j, stop ≤ j → j < stop' → marks j = none) : marks.Blocked start stop' handler where
  opened := by
    intro j last hj hlt hmark
    rcases Nat.lt_or_ge j stop with hold | hnew
    · obtain hopen | ⟨k, hjk, hk, hrest⟩ := h.opened j last hj hold hmark
      · exact .inl hopen
      · exact .inr ⟨k, hjk, by omega, hrest⟩
    · rw [hnone j hnew hlt] at hmark
      cases hmark
  closed := by
    intro k hk hlt hmark
    rcases Nat.lt_or_ge k stop with hold | hnew
    · exact h.closed k hk hold hmark
    · rw [hnone k hnew hlt] at hmark
      cases hmark
  handler := by
    intro j hj
    obtain ⟨hstart, hlt, hmark, hclear⟩ := h.handler j hj
    refine ⟨hstart, by omega, hmark, fun i hji hi => ?_⟩
    rcases Nat.lt_or_ge i stop with hold | hnew
    · exact hclear i hji hold
    · exact hnone i hnew hi

/-- A handler is open from now on, whatever was open before. -/
theorem opens (h : marks.Blocked start stop handler) (hle : start ≤ stop)
    (hmark : marks stop = some (.opens Program.sentinel)) :
    marks.Blocked start (stop + 1) (some stop) where
  opened := by
    intro j last hj hlt hopens
    rcases Nat.lt_or_eq_of_le (Nat.le_of_lt_succ hlt) with hold | rfl
    · refine .inr ?_
      obtain hopen | ⟨k, hjk, hk, hrest⟩ := h.opened j last hj hold hopens
      · -- the handler that was open is answered by the new one
        obtain ⟨-, -, hsentinel, hclear⟩ := h.handler j hopen
        rw [hopens] at hsentinel
        cases hsentinel
        exact ⟨stop, hold, Nat.lt_succ_self stop, hclear, .overtaken hmark rfl⟩
      · exact ⟨k, hjk, by omega, hrest⟩
    · exact .inl rfl
  closed := by
    intro k hk hlt hcloses
    rcases Nat.lt_or_eq_of_le (Nat.le_of_lt_succ hlt) with hold | rfl
    · exact h.closed k hk hold hcloses
    · rw [hmark] at hcloses
      cases hcloses
  handler := by
    rintro j ⟨⟩
    exact ⟨hle, Nat.lt_succ_self stop, hmark, fun i hi hlt => absurd hlt (by omega)⟩

/-- The handler that is open gets its end. -/
theorem closes {j : Nat} (h : marks.Blocked start stop (some j)) (hmark : marks stop = some .closes) :
    (marks.give j (stop + 1)).Blocked start (stop + 1) none := by
  obtain ⟨hstart, hj, hopen, hclear⟩ := h.handler j rfl
  have hkept : ∀ i, i ≠ j → marks.give j (stop + 1) i = marks i := fun i hne => give_of_ne hne
  refine ⟨?_, ?_, nofun⟩
  · intro i last hi hlt hopens
    refine .inr ?_
    by_cases hij : i = j
    · subst hij
      rw [give_self] at hopens
      cases hopens
      have hcloses : marks.give i (stop + 1) stop = some .closes := by
        rw [hkept stop (by omega)]
        exact hmark
      exact ⟨stop, hj, Nat.lt_succ_self stop, hclear.give hopen, .own hcloses rfl⟩
    · rw [hkept i hij] at hopens
      have hold : i < stop := by
        refine Nat.lt_of_le_of_ne (Nat.le_of_lt_succ hlt) fun heq => ?_
        rw [heq, hmark] at hopens
        cases hopens
      obtain hsame | ⟨k, hik, hk, hbetween, hanswers⟩ := h.opened i last hi hold hopens
      · exact absurd (Option.some.inj hsame).symm hij
      · exact ⟨k, hik, by omega, hbetween.give hopen, hanswers.give hopen⟩
  · intro k hk hlt hcloses
    have hkj : k ≠ j := by
      rintro rfl
      rw [give_self] at hcloses
      cases hcloses
    rw [hkept k hkj] at hcloses
    rcases Nat.lt_or_eq_of_le (Nat.le_of_lt_succ hlt) with hold | rfl
    · obtain ⟨i, hi, hik, hbetween, hopens⟩ := h.closed k hk hold hcloses
      have hij : i ≠ j := by
        -- behind the open handler there is no end yet
        rintro rfl
        rw [hclear k hik hold] at hcloses
        cases hcloses
      exact ⟨i, hi, hik, hbetween.give hopen, (hkept i hij).trans hopens⟩
    · exact ⟨j, hstart, hj, hclear.give hopen, give_self ..⟩

end Blocked

end BlockMarks

end Deskhand
