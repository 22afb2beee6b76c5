import Deskhand.Proofs.Filling
import Deskhand.Proofs.WindowOrigin
import Deskhand.Proofs.WordArithmetic

/-!
# Pixel arithmetic in the range of words

Sums and differences of pixels are not checked for their width. A step that does arithmetic *stays
in range* if it does not matter what is made of exact results that are no words (`StepM.InRange`):
whether they are cut, trapped or refused, the run is the one with exact arithmetic. What that takes
is found part by part, down to single results (`inRange_bind`, `inRange_plain_bind`).

Coordinates come from documents, expressions and screen records and may be any words. At the ends of
the range sums leave the words, and the middle that the machine finds then lies outside of its box
(`Box.contains_center_iff`). As long as all operands are below a quarter of the range in size no
step leaves it, and a scroll downward leaves it in one case only (`pixel_arithmetic_in_range`).
-/

namespace Deskhand

open Value (IsInt64)

namespace StepM

/-! ## Staying in range -/

section Range

variable {α β : Type} {c : StepContext} {w : Workspace}

/-- Whatever a part of a step gives, if it does not fail, it and the workspace then are so. -/
def Yields (x : StepM α) (c : StepContext) (w : Workspace) (p : α → Workspace → Prop) : Prop :=
  ∀ a after, x.result c w = (.ok a, after) → p a after

theorem yields_of_ok {a : α} {after : Workspace} {x : StepM α} {p : α → Workspace → Prop}
    (h : x.result c w = (.ok a, after)) : x.Yields c w p ↔ p a after :=
  ⟨fun hp => hp a after h, fun hp _ _ hx => by cases h.symm.trans hx; exact hp⟩

instance {x : StepM α} {p : α → Workspace → Prop} [∀ a after, Decidable (p a after)] :
    Decidable (x.Yields c w p) :=
  match hrun : x.result c w with
  | (.ok a, after) => decidable_of_iff (p a after) (yields_of_ok hrun).symm
  | (.error _, _) => isTrue fun _ _ hx => by cases hrun.symm.trans hx

theorem yields_pure {a : α} {p : α → Workspace → Prop} :
    (pure a : StepM α).Yields c w p ↔ p a w := by
  constructor
  · exact fun h => h a w rfl
  · rintro h _ _ hrun
    cases hrun
    exact h

theorem yields_bind {x : StepM α} {f : α → StepM β} {p : β → Workspace → Prop} :
    (x >>= f).Yields c w p ↔ x.Yields c w fun a after => (f a).Yields c after p := by
  constructor
  · intro h a after hx b last hf
    exact h b last (by rw [result_bind_of_ok hx, hf])
  · intro h b last hrun
    rw [result_bind] at hrun
    rcases hx : x.result c w with ⟨e | a, after⟩
    · rw [hx] at hrun
      cases hrun
    · rw [hx] at hrun
      exact h a after hx b last hrun

theorem yields_bind_of_ok {a : α} {after : Workspace} {x : StepM α} {f : α → StepM β}
    {p : β → Workspace → Prop} (h : x.result c w = (.ok a, after)) :
    (x >>= f).Yields c w p ↔ (f a).Yields c after p := by
  rw [yields_bind, yields_of_ok h]

theorem yields_congr {x : StepM α} {p q : α → Workspace → Prop}
    (h : ∀ a after, x.result c w = (.ok a, after) → (p a after ↔ q a after)) :
    x.Yields c w p ↔ x.Yields c w q :=
  forall₃_congr h

/-- What is made of exact results that are no words makes no difference. -/
def InRange (step : (Int → StepM Int) → StepM α) (c : StepContext) (w : Workspace) : Prop :=
  ∀ plain : Int → StepM Int, (∀ n, IsInt64 n → plain n = pure n) →
    (step plain).result c w = (step pure).result c w

theorem inRange_const (x : StepM α) : InRange (fun _ => x) c w := fun _ _ => rfl

/-- A part that stays in range goes on as with exact arithmetic. -/
theorem InRange.bind {x : (Int → StepM Int) → StepM α} {f : (Int → StepM Int) → α → StepM β}
    (hx : InRange x c w) (hf : (x pure).Yields c w fun a after => InRange (f · a) c after) :
    InRange (fun plain => x plain >>= f plain) c w := by
  intro plain hplain
  rw [result_bind, result_bind, hx plain hplain]
  rcases hr : (x pure).result c w with ⟨e | a, after⟩
  · rfl
  · exact hf a after hr plain hplain

/-- A part without arithmetic may stand ahead. -/
theorem inRange_bind {x : StepM α} {f : (Int → StepM Int) → α → StepM β} :
    InRange (fun plain => x >>= f plain) c w ↔
      x.Yields c w fun a after => InRange (f · a) c after := by
  constructor
  · intro h a after hx plain hplain
    have hrun := h plain hplain
    rw [result_bind_of_ok hx, result_bind_of_ok hx] at hrun
    exact hrun
  · intro h plain hplain
    rw [result_bind, result_bind]
    rcases hx : x.result c w with ⟨e | a, after⟩
    · rfl
    · exact h a after hx plain hplain

/-- A result that is no word shows: two traps that differ tell it from every run. -/
theorem inRange_plain_bind {n : Int} {f : (Int → StepM Int) → Int → StepM β} :
    InRange (fun plain => plain n >>= f plain) c w ↔ IsInt64 n ∧ InRange (f · n) c w := by
  have hword : ∀ plain : Int → StepM Int, plain n = pure n →
      (plain n >>= f plain).result c w = (f plain n).result c w := fun plain h => by
    rw [h, pure_bind]
  constructor
  · intro h
    have hn : IsInt64 n := by
      by_contra hn
      have htrap : ∀ failure, (Except.error failure, w) =
          ((pure n >>= f pure : StepM β)).result c w := fun failure => by
        rw [← h (fun n => if IsInt64 n then pure n else throw failure) fun n hn => if_pos hn]
        dsimp only
        rw [if_neg hn]
        rfl
      cases (htrap .noKeys).trans (htrap .noAmount).symm
    refine ⟨hn, fun plain hplain => ?_⟩
    rw [← hword plain (hplain n hn), ← hword pure rfl]
    exact h plain hplain
  · rintro ⟨hn, h⟩ plain hplain
    rw [hword plain (hplain n hn), hword pure rfl]
    exact h plain hplain

end Range

end StepM

/-! ## The middle of a box -/

namespace Box

/-- The sides are in order. -/
structure Ordered (b : Box) : Prop where
  across : b.left ≤ b.right
  down : b.top ≤ b.bottom

/-- The point lies in the box or on its sides. -/
structure Contains (b : Box) (p : Point) : Prop where
  across : b.left ≤ p.x ∧ p.x ≤ b.right
  down : b.top ≤ p.y ∧ p.y ≤ b.bottom

/-- The middle of the box with exact arithmetic. -/
def middle (b : Box) : Point := ⟨(b.left + b.right).tdiv 2, (b.top + b.bottom).tdiv 2⟩

end Box

section Middle

variable {a b : Int}

theorem tdiv_two (n : Int) : n.tdiv 2 = if 0 ≤ n then n / 2 else -(-n / 2) := by
  split
  · next h => exact Int.tdiv_eq_ediv_of_nonneg h
  · next h =>
    rw [← Int.tdiv_eq_ediv_of_nonneg (by omega), Int.neg_tdiv, Int.neg_neg]

/-- The middle of two integers lies between them. -/
theorem between_tdiv (h : a ≤ b) : a ≤ (a + b).tdiv 2 ∧ (a + b).tdiv 2 ≤ b := by
  rw [tdiv_two]
  split <;> omega

/-- The middle of two words that the machine finds lies between them exactly if their sum is a word:
the sum of two words of one sign that is none is cut to a number of the other sign. -/
theorem between_wrapped_iff (ha : IsInt64 a) (hb : IsInt64 b) (h : a ≤ b) :
    (a ≤ (Expr.wrapped (a + b)).run.tdiv 2 ∧ (Expr.wrapped (a + b)).run.tdiv 2 ≤ b) ↔
      IsInt64 (a + b) := by
  unfold IsInt64 Word.minInt Word.maxInt at *
  constructor
  · intro hbetween
    by_contra hsum
    have hcut : (Expr.wrapped (a + b)).run = a + b - 2 ^ 64 ∨
        (Expr.wrapped (a + b)).run = a + b + 2 ^ 64 := by
      change (a + b).bmod 18446744073709551616 = _ ∨ (a + b).bmod 18446744073709551616 = _
      rw [Int.bmod_def]
      omega
    rw [tdiv_two] at hbetween
    split at hbetween <;> omega
  · intro hsum
    rw [Expr.wrapped_word hsum]
    exact between_tdiv h

end Middle

theorem Box.contains_center_iff {b : Box} (h : b.Ordered) (hleft : IsInt64 b.left)
    (htop : IsInt64 b.top) (hright : IsInt64 b.right) (hbottom : IsInt64 b.bottom) :
    b.Contains b.center ↔ IsInt64 (b.left + b.right) ∧ IsInt64 (b.top + b.bottom) := by
  rw [← between_wrapped_iff hleft hright h.across, ← between_wrapped_iff htop hbottom h.down]
  exact ⟨fun ⟨across, down⟩ => ⟨across, down⟩, fun ⟨across, down⟩ => ⟨across, down⟩⟩

/-- A number is cut to a word. -/
theorem Binary64.isInt64_toInt64 (x : Binary64) : IsInt64 x.toInt64 := by
  unfold IsInt64 toInt64 toIntBetween Word.minInt Word.maxInt
  cases x with
  | finite x => dsimp only; omega
  | infinite negative => cases negative <;> decide
  | nan => decide

/-- The sides of a box that a value denotes are words. -/
theorem Box.isInt64_of_ofValue? {v : Value} {b : Box} (h : Box.ofValue? v = some b) :
    IsInt64 b.left ∧ IsInt64 b.top ∧ IsInt64 b.right ∧ IsInt64 b.bottom := by
  have hpixel : ∀ {v n}, pixel? v = some n → IsInt64 n := fun {v n} h => by
    obtain ⟨x, -, rfl⟩ := Option.map_eq_some_iff.1 h
    exact x.isInt64_toInt64
  have hside : ∀ {o : Option Value} {n}, o.bind pixel? = some n → IsInt64 n := fun {o n} h => by
    obtain ⟨v, -, hv⟩ := Option.bind_eq_some_iff.1 h
    exact hpixel hv
  unfold ofValue? at h
  split at h
  · simp only [bind, Option.bind_eq_some_iff, Option.some.injEq] at h
    obtain ⟨top, htop, left, hleft, bottom, hbottom, right, hright, rfl⟩ := h
    exact ⟨hpixel hleft, hpixel htop, hpixel hright, hpixel hbottom⟩
  · simp only [bind, Option.bind_eq_some_iff, Option.some.injEq] at h
    obtain ⟨left, hleft, top, htop, right, hright, bottom, hbottom, rfl⟩ := h
    exact ⟨hside (Option.bind_eq_some_iff.2 hleft), hside (Option.bind_eq_some_iff.2 htop),
      hside (Option.bind_eq_some_iff.2 hright), hside (Option.bind_eq_some_iff.2 hbottom)⟩
  · cases h

/-! ## Parts of steps -/

/-- Less than a quarter of the range of words in size. -/
def IsNear (n : Int) : Prop := -2 ^ 61 < n ∧ n < 2 ^ 61

instance (n : Int) : Decidable (IsNear n) := inferInstanceAs (Decidable (_ ∧ _))

structure Point.Near (p : Point) : Prop where
  x : IsNear p.x
  y : IsNear p.y

structure Box.Near (b : Box) : Prop where
  left : IsNear b.left
  top : IsNear b.top
  right : IsNear b.right
  bottom : IsNear b.bottom

namespace Box.Near

variable {b : Box}

instance : Decidable b.Near :=
  decidable_of_iff (IsNear b.left ∧ IsNear b.top ∧ IsNear b.right ∧ IsNear b.bottom)
    ⟨fun ⟨left, top, right, bottom⟩ => ⟨left, top, right, bottom⟩,
      fun ⟨left, top, right, bottom⟩ => ⟨left, top, right, bottom⟩⟩

variable (h : b.Near)

include h

theorem isInt64_sums : IsInt64 (b.left + b.right) ∧ IsInt64 (b.top + b.bottom) := by
  obtain ⟨⟨hl, hl'⟩, ⟨ht, ht'⟩, ⟨hr, hr'⟩, ⟨hb, hb'⟩⟩ := h
  unfold IsInt64 Word.minInt Word.maxInt
  omega

theorem isInt64_sizes : IsInt64 (b.right - b.left) ∧ IsInt64 (b.bottom - b.top) := by
  obtain ⟨⟨hl, hl'⟩, ⟨ht, ht'⟩, ⟨hr, hr'⟩, ⟨hb, hb'⟩⟩ := h
  unfold IsInt64 Word.minInt Word.maxInt
  omega

theorem middle : b.middle.Near := by
  obtain ⟨⟨hl, hl'⟩, ⟨ht, ht'⟩, ⟨hr, hr'⟩, ⟨hb, hb'⟩⟩ := h
  have hhalf : ∀ {n : Int}, -2 ^ 62 < n - 1 → n + 1 < 2 ^ 62 → IsNear (n.tdiv 2) :=
    fun {n} hlow hhigh => by
      unfold IsNear
      rw [tdiv_two]
      split <;> omega
  exact ⟨hhalf (by omega) (by omega), hhalf (by omega) (by omega)⟩

theorem anchor (side : String) : (b.anchor side b.middle).Near := by
  unfold Box.anchor
  split
  · exact ⟨h.left, h.middle.y⟩
  · exact ⟨h.right, h.middle.y⟩
  · exact ⟨h.middle.x, h.top⟩
  · exact ⟨h.middle.x, h.bottom⟩
  · exact h.middle

end Box.Near

namespace StepM

section Parts

variable {β : Type} {c : StepContext} {w : Workspace}

theorem inRange_centerWith_bind {b : Box} {f : (Int → StepM Int) → Point → StepM β} :
    InRange (fun plain => b.centerWith plain >>= f plain) c w ↔
      (IsInt64 (b.left + b.right) ∧ IsInt64 (b.top + b.bottom)) ∧ InRange (f · b.middle) c w := by
  simp only [Box.centerWith, bind_assoc, pure_bind, inRange_plain_bind, Box.middle, and_assoc]

theorem inRange_offset_bind {p : Point} {dx dy : Int} {f : (Int → StepM Int) → Point → StepM β} :
    InRange (fun plain => p.offset plain dx dy >>= f plain) c w ↔
      (IsInt64 (p.x + dx) ∧ IsInt64 (p.y + dy)) ∧ InRange (f · ⟨p.x + dx, p.y + dy⟩) c w := by
  simp only [Point.offset, bind_assoc, pure_bind, inRange_plain_bind, and_assoc]

end Parts

end StepM

/-! ## Clicks -/

namespace MouseClick

/-- All that a click adds up is near: the box that it aims at, the offsets that are given and where
the window is. -/
structure Near (click : MouseClick) (box : Box) (window : WindowRect) : Prop where
  aim : box.Near
  shift : IsNear (click.shift (m := Id) pure box).1 ∧
    IsNear (click.shift (m := Id) pure box).2
  origin : IsNear window.x ∧ IsNear window.y
  target : ∀ goal ∈ Box.ofValue? click.actionArgs, goal.Near
  along : ∀ offset ∈ pair? click.actionArgs, IsNear offset.1.toInt64 ∧ IsNear offset.2.toInt64
  on : ∀ offset ∈ pair? click.postMove, IsNear offset.1.toInt64 ∧ IsNear offset.2.toInt64

instance (click : MouseClick) (box : Box) (window : WindowRect) :
    Decidable (click.Near box window) :=
  decidable_of_iff (box.Near ∧ (IsNear (click.shift (m := Id) pure box).1 ∧
      IsNear (click.shift (m := Id) pure box).2) ∧ (IsNear window.x ∧ IsNear window.y) ∧
      (∀ goal ∈ Box.ofValue? click.actionArgs, goal.Near) ∧
      (∀ offset ∈ pair? click.actionArgs, IsNear offset.1.toInt64 ∧ IsNear offset.2.toInt64) ∧
      ∀ offset ∈ pair? click.postMove, IsNear offset.1.toInt64 ∧ IsNear offset.2.toInt64)
    ⟨fun ⟨aim, shift, origin, target, along, on⟩ => ⟨aim, shift, origin, target, along, on⟩,
      fun ⟨aim, shift, origin, target, along, on⟩ => ⟨aim, shift, origin, target, along, on⟩⟩

/-- Where the click is with exact arithmetic. -/
def place (click : MouseClick) (box : Box) (window : WindowRect) : Point :=
  let shift := click.shift (m := Id) pure box
  let anchor := box.anchor click.side box.middle
  ⟨anchor.x + shift.1 + window.x, anchor.y + shift.2 + window.y⟩

open StepM

variable {click : MouseClick} {box : Box} {window : WindowRect} {c : StepContext} {w : Workspace}
  {β : Type}

theorem Near.place (h : click.Near box window) :
    (-3 * 2 ^ 61 < (click.place box window).x ∧ (click.place box window).x < 3 * 2 ^ 61) ∧
      (-3 * 2 ^ 61 < (click.place box window).y ∧ (click.place box window).y < 3 * 2 ^ 61) := by
  obtain ⟨⟨hx, hx'⟩, ⟨hy, hy'⟩⟩ := h.aim.anchor click.side
  obtain ⟨⟨hdx, hdx'⟩, ⟨hdy, hdy'⟩⟩ := h.shift
  obtain ⟨⟨hox, hox'⟩, ⟨hoy, hoy'⟩⟩ := h.origin
  unfold MouseClick.place
  dsimp only
  omega

theorem Near.inRange_shift (h : click.Near box window)
    {f : (Int → StepM Int) → Int × Int → StepM β}
    (hf : InRange (f · (click.shift (m := Id) pure box)) c w) :
    InRange (fun plain => click.shift plain box >>= f plain) c w := by
  unfold MouseClick.shift at hf ⊢
  by_cases hunit : click.unit = "box"
  · simp only [if_pos hunit, Box.widthWith, Box.heightWith, bind_assoc, pure_bind,
      inRange_plain_bind] at hf ⊢
    exact ⟨h.aim.isInt64_sizes.1, h.aim.isInt64_sizes.2, hf⟩
  · simp only [if_neg hunit, pure_bind] at hf ⊢
    exact hf

theorem Near.inRange_point (h : click.Near box window) {f : (Int → StepM Int) → Point → StepM β}
    (hf : InRange (f · (click.place box window)) c w) :
    InRange (fun plain =>
      click.point plain box (click.shift (m := Id) pure box) window >>= f plain) c w := by
  obtain ⟨⟨hx, hx'⟩, ⟨hy, hy'⟩⟩ := h.aim.anchor click.side
  obtain ⟨⟨hdx, hdx'⟩, ⟨hdy, hdy'⟩⟩ := h.shift
  obtain ⟨⟨hox, hox'⟩, ⟨hoy, hoy'⟩⟩ := h.origin
  simp only [point, bind_assoc, inRange_centerWith_bind, inRange_offset_bind]
  refine ⟨h.aim.isInt64_sums, ?_, ?_, hf⟩ <;>
  · unfold IsInt64 Word.minInt Word.maxInt
    omega

theorem Near.inRange_perform (h : click.Near box window) :
    InRange (click.perform · (click.place box window) window) c w := by
  have hplace := h.place
  have hdrag : ∀ {f : Option Point → StepM Unit}, InRange (fun plain =>
      click.destination? plain (click.place box window) window >>= f) c w := fun {f} => by
    obtain ⟨⟨hox, hox'⟩, ⟨hoy, hoy'⟩⟩ := h.origin
    cases htarget : Box.ofValue? click.actionArgs with
    | some goal =>
      obtain ⟨⟨hx, hx'⟩, ⟨hy, hy'⟩⟩ := (h.target goal htarget).middle
      simp only [destination?, htarget, bind_assoc, pure_bind, inRange_centerWith_bind,
        inRange_offset_bind]
      refine ⟨(h.target goal htarget).isInt64_sums, ?_, inRange_const _⟩
      unfold IsInt64 Word.minInt Word.maxInt
      omega
    | none =>
      cases hpair : pair? click.actionArgs with
      | some offset =>
        obtain ⟨⟨hx, hx'⟩, ⟨hy, hy'⟩⟩ := h.along _ hpair
        simp only [destination?, htarget, hpair, bind_assoc, pure_bind, inRange_offset_bind]
        refine ⟨?_, inRange_const _⟩
        unfold IsInt64 Word.minInt Word.maxInt
        omega
      | none =>
        simp only [destination?, htarget, hpair, pure_bind]
        exact inRange_const _
  unfold perform
  dsimp only
  split
  · exact hdrag
  · exact inRange_const _

theorem Near.inRange_moveOn (h : click.Near box window) :
    InRange (click.moveOn · (click.place box window)) c w := by
  have hplace := h.place
  unfold moveOn
  split
  · next dx dy hpair =>
    obtain ⟨⟨hx, hx'⟩, ⟨hy, hy'⟩⟩ : IsNear dx.toInt64 ∧ IsNear dy.toInt64 := h.on _ hpair
    rw [inRange_offset_bind]
    refine ⟨?_, inRange_const _⟩
    unfold IsInt64 Word.minInt Word.maxInt
    omega
  · exact inRange_const _

end MouseClick

/-! ## Steps -/

/-- What a click aims at. The window that it lands in is the one on top then. -/
def clickAim (args : Entries Value) : StepM (MouseClick × Box) := do
  let click := MouseClick.ofEntries (← StepM.arguments MouseClick.fields args)
  return (click, ← click.aim)

/-- The box that a search scroll is about and the height that it is to come to, if there is one. -/
def searchAim (args : Entries Value) : StepM (Option (Box × Int)) := do
  scrollGoal (← StepM.arguments searchScrollFields args)

/-- The last place of the marker of a calibration, the marker, and the screen that it is on. -/
def calibrationAim (args : Entries Value) : StepM (Value × String × String) := do
  let r ← StepM.arguments calibrateScrollFields args
  let (_, marker, last) ← calibrationStart r
  return (last, marker, r.text "screen")

/-- Whether a scroll goes downward, and by how many units. -/
def scrollAim (args : Entries Value) : StepM (Bool × Int) := do
  let r ← StepM.arguments mouseScrollFields args
  return (scrollsDown r, ← scrollUnits r)

section Steps

open StepM

variable {args : Entries Value} {c : StepContext} {w : Workspace}

/-- The window on top is that of the workspace, which stays as it is. -/
theorem topWindow_yields :
    topWindow.Yields c w fun window after => window = w.world.desktop.window ∧ after = w := by
  intro window after h
  rw [result_topWindow] at h
  cases hcheck : w.world.desktop.check "top_window_rect" with
  | error fault =>
    rw [hcheck] at h
    cases h
  | ok _ =>
    rw [hcheck] at h
    cases h
    exact ⟨rfl, rfl⟩

/-- A click whose operands are near stays in range. -/
theorem mouseClick_inRange
    (h : (clickAim args).Yields c w fun (click, box) after =>
      click.Near box after.world.desktop.window) :
    InRange (mouseClickWith · args) c w := by
  refine inRange_bind.2 fun r w₁ hr => inRange_bind.2 fun box w₂ hbox => ?_
  have hnear : (MouseClick.ofEntries r).Near box w₂.world.desktop.window := by
    refine h (MouseClick.ofEntries r, box) w₂ ?_
    unfold clickAim
    rw [result_bind_of_ok hr, result_bind_of_ok hbox]
    rfl
  refine hnear.inRange_shift (inRange_bind.2 fun window w₃ hwindow => ?_)
  obtain ⟨rfl, rfl⟩ := topWindow_yields window w₃ hwindow
  refine hnear.inRange_point (inRange_bind.2 fun _ _ _ => inRange_bind.2 fun _ _ _ =>
    inRange_bind.2 fun _ _ _ => ?_)
  exact hnear.inRange_perform.bind fun _ _ _ => hnear.inRange_moveOn.bind fun _ _ _ =>
    inRange_const _

/-- A search scroll stays in range if the box that it finds and the height that it is to come to are
near. -/
theorem searchScroll_inRange
    (h : (searchAim args).Yields c w fun goal _ =>
      ∀ place ∈ goal, place.1.Near ∧ IsNear place.2) :
    InRange (searchScrollWith · args) c w := by
  refine inRange_bind.2 fun r w₁ hr => inRange_bind.2 fun goal w₂ hgoal => ?_
  have hnear := h goal w₂ ((result_bind_of_ok hr).trans hgoal)
  cases goal with
  | none => exact inRange_const _
  | some goal =>
    obtain ⟨box, desired⟩ := goal
    obtain ⟨hbox, hdesired⟩ : box.Near ∧ IsNear desired := hnear _ rfl
    refine inRange_centerWith_bind.2 ⟨hbox.isInt64_sums, inRange_bind.2 fun _ _ _ =>
      inRange_plain_bind.2 ⟨?_, inRange_const _⟩⟩
    obtain ⟨hy, hy'⟩ := hbox.middle.y
    obtain ⟨hd, hd'⟩ := hdesired
    unfold IsInt64 Word.minInt Word.maxInt
    omega

/-- The height at which a value is, or the box that it is the middle of, is near. -/
def Value.StandsNear : Value → Prop
  | .list [_, y] => ∀ x ∈ y.real?, IsNear x.round.toInt64
  | v => ∀ box ∈ ((ScreenRecord.ofValue? v).map (·.box)).or (Box.ofValue? v), box.Near

instance (v : Value) : Decidable v.StandsNear := by
  unfold Value.StandsNear
  split <;> infer_instance

theorem heightOf?_inRange {β : Type} {v : Value} (h : v.StandsNear)
    {f : (Int → StepM Int) → Option Int → StepM β}
    (hf : ∀ height, (∀ y, height = some y → IsNear y) → InRange (f · height) c w) :
    InRange (fun plain => heightOf? plain v >>= f plain) c w := by
  unfold heightOf?
  split
  · next y =>
    refine inRange_bind.2 fun height after hheight => ?_
    cases hheight
    refine hf _ fun n hn => ?_
    obtain ⟨x, hx, rfl⟩ := Option.map_eq_some_iff.1 hn
    exact h x hx
  · next hv =>
    have hnear : ∀ box ∈ ((ScreenRecord.ofValue? v).map (·.box)).or (Box.ofValue? v), box.Near := by
      unfold Value.StandsNear at h
      split at h
      · exact absurd rfl (hv _ _)
      · exact h
    split
    · next box hbox =>
      simp only [bind_assoc, pure_bind]
      refine inRange_centerWith_bind.2 ⟨(hnear box hbox).isInt64_sums, hf _ fun _ hy => ?_⟩
      cases hy
      exact (hnear box hbox).middle.y
    · refine inRange_bind.2 fun height after hheight => ?_
      cases hheight
      exact hf none fun _ h => by cases h

/-- A calibration stays in range if its marker was and is near. -/
theorem calibrateScroll_inRange
    (h : (calibrationAim args).Yields c w fun (last, marker, screen) after =>
      last.StandsNear ∧ (markerBox marker screen).Yields c after fun box _ => box.Near) :
    InRange (calibrateScrollWith · args) c w := by
  refine inRange_bind.2 fun r w₁ hr => inRange_bind.2 fun start w₂ hstart => ?_
  obtain ⟨hlast, hmarker⟩ := h (start.2.2, start.2.1, r.text "screen") w₂
    ((result_bind_of_ok hr).trans (result_bind_of_ok hstart))
  refine heightOf?_inRange hlast fun height hheight => ?_
  cases height with
  | none => exact inRange_bind.2 fun _ _ hthrow => by cases hthrow
  | some y =>
    refine inRange_bind.2 fun before w₃ hbefore => ?_
    cases hbefore
    refine inRange_bind.2 fun box w₄ hbox => inRange_centerWith_bind.2 ⟨?_, ?_⟩
    · exact (hmarker box w₄ hbox).isInt64_sums
    · obtain ⟨hm, hm'⟩ := (hmarker box w₄ hbox).middle.y
      obtain ⟨hy, hy'⟩ := hheight y rfl
      refine inRange_plain_bind.2 ⟨?_, inRange_plain_bind.2 ⟨?_, inRange_const _⟩⟩ <;>
      · unfold IsInt64 Word.minInt Word.maxInt
        omega

/-- Downward is the other way for every word but the least one. -/
theorem inRange_downward_bind {units : Int} (hunits : IsInt64 units)
    {f : (Int → StepM Int) → Int → StepM Unit} (hf : ∀ n, InRange (f · n) c w) :
    InRange (fun plain => downward plain units >>= f plain) c w ↔ units ≠ Word.minInt := by
  simp only [downward, bind_assoc, inRange_plain_bind, hf, and_true]
  unfold IsInt64 Word.minInt Word.maxInt at *
  omega

theorem scrollUnits_word (r : Entries Value) :
    (scrollUnits r).Yields c w fun units _ => IsInt64 units := by
  have hlast : ∀ (x : Binary64) (w : Workspace), (do
      let lo ← numberOf (r.value "random_min")
      let hi ← numberOf (r.value "random_max")
      let jitter ← scrollJitter lo hi
      return (x + jitter).round.toInt64).Yields c w fun units _ => IsInt64 units := fun x _ =>
    yields_bind.2 fun _ _ _ => yields_bind.2 fun _ _ _ => yields_bind.2 fun _ _ _ =>
      yields_pure.2 (Binary64.isInt64_toInt64 _)
  refine yields_bind.2 fun amount w₁ _ => ?_
  dsimp only
  split
  · refine yields_bind.2 fun amount w₂ _ => yields_bind.2 fun resolution w₃ _ => ?_
    split
    · exact yields_bind.2 fun _ _ _ => yields_bind.2 fun x w₄ _ => hlast x w₄
    · exact yields_bind.2 fun x w₄ _ => hlast x w₄
  · exact yields_bind.2 fun _ _ hthrow => by cases hthrow

/-- A scroll stays in range unless it goes downward by the least word. -/
theorem mouseScroll_inRange_iff :
    InRange (mouseScrollWith · args) c w ↔
      (scrollAim args).Yields c w fun (down, units) _ => ¬(down ∧ units = Word.minInt) := by
  unfold mouseScrollWith scrollAim
  rw [inRange_bind, yields_bind]
  refine yields_congr fun r w₁ _ => ?_
  rw [inRange_bind, yields_bind]
  refine yields_congr fun units w₂ hunits => ?_
  have hword := scrollUnits_word r units w₂ hunits
  have hrest : ∀ n, InRange (fun _ => do
      act (.scroll n)
      pause (← secondsOf (r.value "postwait"))) c w₂ := fun n => inRange_const _
  rw [yields_pure]
  dsimp only
  split
  · next hdown =>
    simp only [hdown, true_and]
    exact inRange_downward_bind hword hrest
  · next hdown => exact iff_of_true (inRange_const _) fun h => hdown h.1

/-- The arithmetic of steps on pixels stays in range as long as its operands are near, and a scroll
does so unless it goes downward by the least word. The middle of a box that is in order lies in it
exactly if the sums that it is half of are words. -/
theorem pixel_arithmetic_in_range (args : Entries Value) (c : StepContext) (w : Workspace) :
    ((clickAim args).Yields c w (fun (click, box) after =>
        click.Near box after.world.desktop.window) →
      InRange (mouseClickWith · args) c w) ∧
    ((searchAim args).Yields c w (fun goal _ => ∀ place ∈ goal, place.1.Near ∧ IsNear place.2) →
      InRange (searchScrollWith · args) c w) ∧
    ((calibrationAim args).Yields c w (fun (last, marker, screen) after =>
        last.StandsNear ∧ (markerBox marker screen).Yields c after fun box _ => box.Near) →
      InRange (calibrateScrollWith · args) c w) ∧
    (InRange (mouseScrollWith · args) c w ↔
      (scrollAim args).Yields c w fun (down, units) _ => ¬(down ∧ units = Word.minInt)) ∧
    ∀ v b, Box.ofValue? v = some b → b.Ordered →
      (b.Contains b.center ↔ IsInt64 (b.left + b.right) ∧ IsInt64 (b.top + b.bottom)) := by
  refine ⟨mouseClick_inRange, searchScroll_inRange, calibrateScroll_inRange,
    mouseScroll_inRange_iff, fun v b hb hordered => ?_⟩
  obtain ⟨hleft, htop, hright, hbottom⟩ := Box.isInt64_of_ofValue? hb
  exact Box.contains_center_iff hordered hleft htop hright hbottom

/-- A record on the screen. -/
def okRecord : ScreenRecord := ⟨"OK", "anchor text", ⟨40, 10, 80, 30⟩, none, none⟩

/-- A workspace whose screen shows one record, with its last place. -/
def oneRecord : Workspace :=
  .initially [(Reserved.lastScreen, .list [okRecord.toValue]), ("last", .list [.int 60, .int 500])]

theorem screenRecords_oneRecord :
    (screenRecords "").result ⟨.usual, 0⟩ oneRecord = (.ok [okRecord], oneRecord) := by
  have hname : Expr.readTarget Reserved.lastScreen = .ok ⟨Reserved.lastScreen, []⟩ := by cbv
  exact (result_bind_of_ok
    (FillData.result_evaluate hname (Expr.isLiteral_name _) (by rfl))).trans rfl

def clickArgs : Entries Value :=
  [("target_type", .text "direct"), ("target_name", okRecord.box.sides),
    ("post_move", .list [.int 3, .int 4])]

def searchArgs : Entries Value := [("screen", .text ""), ("target", .text "OK")]

theorem searchArgs_near :
    (searchAim searchArgs).Yields ⟨.usual, 0⟩ oneRecord fun goal _ =>
      ∀ place ∈ goal, place.1.Near ∧ IsNear place.2 := by
  have hargs : (arguments searchScrollFields searchArgs).result ⟨.usual, 0⟩ oneRecord =
    (.ok _, oneRecord) := rfl
  refine (yields_bind_of_ok hargs).2 ((yields_bind_of_ok screenRecords_oneRecord).2 ?_)
  clear hargs
  decide +kernel

def calibrationArgs : Entries Value :=
  [("marker", .text "OK"), ("amount", .int 4), ("last_record", .text "last")]

theorem calibrationArgs_near :
    (calibrationAim calibrationArgs).Yields ⟨.usual, 0⟩ oneRecord
      fun (last, marker, screen) after => last.StandsNear ∧
        (markerBox marker screen).Yields ⟨.usual, 0⟩ after fun box _ => box.Near := by
  have hargs : (arguments calibrateScrollFields calibrationArgs).result ⟨.usual, 0⟩ oneRecord =
    (.ok _, oneRecord) := rfl
  have hamount : (numberOf (.int 4)).result ⟨.usual, 0⟩ oneRecord = (.ok _, oneRecord) := rfl
  have hname : Expr.readTarget "last" = .ok ⟨"last", []⟩ := by cbv
  have hlast : (evaluate "last").result ⟨.usual, 0⟩ oneRecord =
      (.ok (.list [.int 60, .int 500]), oneRecord) :=
    FillData.result_evaluate hname (Expr.isLiteral_name _) (by rfl)
  have hnear : (Value.list [.int 60, .int 500]).StandsNear := by decide +kernel
  have hmarker : (markerBox "OK" "").Yields ⟨.usual, 0⟩ oneRecord fun box _ => box.Near :=
    (yields_bind_of_ok screenRecords_oneRecord).2 (by decide +kernel)
  refine (yields_bind_of_ok hargs).2 (yields_bind.2 ((yields_bind_of_ok hamount).2 ?_))
  dsimp only
  split
  · split
    · exact yields_bind.2 fun _ _ h => by cases h
    · exact (yields_bind_of_ok hlast).2 (yields_pure.2 (yields_pure.2 ⟨hnear, hmarker⟩))
  · exact yields_bind.2 fun _ _ h => by cases h

def scrollArgs : Entries Value := [("action", .text "scroll down"), ("amount", .int 4)]

theorem pixel_arithmetic_in_range_usual :
    InRange (mouseClickWith · clickArgs) ⟨.usual, 0⟩ oneRecord ∧
    InRange (searchScrollWith · searchArgs) ⟨.usual, 0⟩ oneRecord ∧
    InRange (calibrateScrollWith · calibrationArgs) ⟨.usual, 0⟩ oneRecord ∧
    InRange (mouseScrollWith · scrollArgs) ⟨.usual, 0⟩ oneRecord ∧
    okRecord.box.Contains okRecord.box.center :=
  ⟨(pixel_arithmetic_in_range clickArgs _ _).1 (by decide +kernel),
    (pixel_arithmetic_in_range searchArgs _ _).2.1 searchArgs_near,
    (pixel_arithmetic_in_range calibrationArgs _ _).2.2.1 calibrationArgs_near,
    (pixel_arithmetic_in_range scrollArgs _ _).2.2.2.1.2 (by decide +kernel),
    ((pixel_arithmetic_in_range [] ⟨.usual, 0⟩ oneRecord).2.2.2.2 okRecord.box.sides okRecord.box
      (by decide +kernel) ⟨by decide, by decide⟩).2 (by decide)⟩

/-- A box whose sides are words, but not their sum. -/
def farBox : Box := ⟨9000000000000000000, 0, 9200000000000000000, 0⟩

/-- Not every click stays in range, and the middle of a box may lie outside of it. -/
theorem not_pixel_arithmetic_in_range :
    (¬∀ (args : Entries Value) (c : StepContext) (w : Workspace),
      InRange (mouseClickWith · args) c w) ∧
    ¬∀ v b, Box.ofValue? v = some b → b.Ordered → b.Contains b.center := by
  refine ⟨fun h => ?_, fun h => ?_⟩
  · -- the machine goes to a middle that exact arithmetic does not find
    have hdone := congrArg (·.2.done)
      (h [("target_type", .text "direct"), ("target_name", farBox.sides)] ⟨.usual, 0⟩
        (.initially []) machine fun n hn => congrArg pure (Expr.wrapped_word hn))
    revert hdone
    decide +kernel
  · have hacross := (h farBox.sides farBox (by decide +kernel) ⟨by decide, by decide⟩).across
    revert hacross
    decide

end Steps

end Deskhand
