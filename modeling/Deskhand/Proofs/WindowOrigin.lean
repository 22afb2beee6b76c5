import Deskhand.Proofs.Filling
import Deskhand.Proofs.Stepwise

/-!
# Clicks move with the window

Where the window on top is decides where on the desktop a click lands, and nothing else. Two runs of
a click are compared whose workspaces differ in the origin of that window only. A part of a step
*moves along* if it ends the same way in both runs, with results in a given relation, and does in
the second one what it does in the first, at points that are moved as the window is
(`StepM.MovesAlong`). The parts that read and write variables, take time or put down rollback points
do not look at the window at all. The parts of a click that do so add its origin once to each point
they act at, so the whole click moves along (`mouseClickWith_movesAlong`), with exact arithmetic as
with that of the machine.
-/

namespace Deskhand

/-! ## What is moved -/

/-- The point moved by an offset, where `cut` is what arithmetic makes of exact results. -/
def Point.moved (cut : Int → Int) (dx dy : Int) (p : Point) : Point :=
  ⟨cut (p.x + dx), cut (p.y + dy)⟩

/-- The action with all of its points moved. -/
def DesktopAction.moved (cut : Int → Int) (dx dy : Int) : DesktopAction → DesktopAction
  | moveTo point => moveTo (point.moved cut dx dy)
  | click point kind => click (point.moved cut dx dy) kind
  | drag start stop => drag (start.moved cut dx dy) (stop.moved cut dx dy)
  | action => action

def WindowRect.moved (dx dy : Int) (r : WindowRect) : WindowRect :=
  { r with x := r.x + dx, y := r.y + dy }

/-- The window on top stands elsewhere. -/
def Desktop.windowMoved (dx dy : Int) (d : Desktop) : Desktop :=
  { d with
    window := d.window.moved dx dy
    windows := d.windows.modifyHead fun w => { w with rect := w.rect.moved dx dy } }

namespace Workspace

/-- The actions so far, the newest first. -/
def done (w : Workspace) : List DesktopAction := w.world.desktop.actions

/-- The same workspace, where the window on top stands elsewhere and other actions were done. -/
def windowMoved (dx dy : Int) (actions : List DesktopAction) (w : Workspace) : Workspace :=
  { w with
    world := { w.world with desktop := { w.world.desktop.windowMoved dx dy with actions } } }

/-- The second workspace is the first one but for the place of the window on top, and has the
actions of the first one that came after some earlier ones with their points moved. -/
def Moved (cut : Int → Int) (dx dy : Int) (earlier : List DesktopAction) (w w' : Workspace) :
    Prop :=
  ∃ new, w.done = new ++ earlier ∧
    w' = w.windowMoved dx dy (new.map (·.moved cut dx dy) ++ earlier)

end Workspace

/-! ## Two runs side by side -/

/-- Every action but one is recorded whenever its method works. -/
theorem Desktop.act_of_ne {action : DesktopAction} (h : ∀ title, action ≠ .bringToFront title)
    (d : Desktop) : d.act action =
      (d.check action.method).map fun _ => { d with actions := action :: d.actions } := by
  unfold Desktop.act
  cases d.check action.method with
  | error fault => rfl
  | ok _ =>
    cases action with
    | bringToFront title => exact absurd rfl (h title)
    | _ => rfl

theorem World.passUntil_withDesktop (time : Nat) (w : World) (desktop : Desktop) :
    ({ w with desktop } : World).passUntil time = { w.passUntil time with desktop } := rfl

theorem World.desktop_passUntil (time : Nat) (w : World) :
    (w.passUntil time).desktop = w.desktop := rfl

/-- A wait neither looks at the desktop nor changes it. -/
theorem World.sleep_withDesktop (d : Duration) (w : World) (desktop : Desktop) :
    ({ w with desktop } : World).sleep d = { w.sleep d with desktop } ∧
      (w.sleep d).desktop = w.desktop := by
  unfold sleep
  split
  · exact ⟨rfl, rfl⟩
  · exact ⟨passUntil_withDesktop _ w desktop, desktop_passUntil _ w⟩

/-- Both runs give results in a relation, or fail for the same reason. -/
inductive Alike {α : Type} (rel : α → α → Prop) : Except Failure α → Except Failure α → Prop
  | ok {a a' : α} (h : rel a a') : Alike rel (.ok a) (.ok a')
  | error (failure : Failure) : Alike rel (.error failure) (.error failure)

theorem Alike.eq {α : Type} {r r' : Except Failure α} (h : Alike Eq r r') : r = r' := by
  cases h with
  | ok h => rw [h]
  | error failure => rfl

namespace StepM

section Parts

variable {cut : Int → Int} {dx dy : Int} {α β : Type} {rel : α → α → Prop} {rel' : β → β → Prop}

variable (cut dx dy) in
/-- In workspaces that differ in the place of the window on top the two parts of steps end alike, in
workspaces that differ so again. -/
def MovesAlong (rel : α → α → Prop) (x x' : StepM α) : Prop :=
  ∀ earlier c w w', w.Moved cut dx dy earlier w' →
    Alike rel (x.result c w).1 (x'.result c w').1 ∧
      (x.result c w).2.Moved cut dx dy earlier (x'.result c w').2

variable (cut dx dy) in
/-- A part of a step that does not look at where the window is. -/
abbrev Blind (x : StepM α) : Prop := MovesAlong cut dx dy Eq x x

namespace MovesAlong

theorem pure {a a' : α} (h : rel a a') : MovesAlong cut dx dy rel (Pure.pure a) (Pure.pure a') :=
  fun _ _ _ _ hw => ⟨.ok h, hw⟩

theorem throw (failure : Failure) :
    MovesAlong cut dx dy rel (MonadExcept.throw failure) (MonadExcept.throw failure) :=
  fun _ _ _ _ hw => ⟨.error failure, hw⟩

theorem bind {x x' : StepM α} {f f' : α → StepM β} (hx : MovesAlong cut dx dy rel x x')
    (hf : ∀ a a', rel a a' → MovesAlong cut dx dy rel' (f a) (f' a')) :
    MovesAlong cut dx dy rel' (x >>= f) (x' >>= f') := by
  intro earlier c w w' hw
  obtain ⟨halike, hafter⟩ := hx earlier c w w' hw
  rw [result_bind, result_bind]
  rcases hr : x.result c w with ⟨r, after⟩
  rcases hr' : x'.result c w' with ⟨r', after'⟩
  rw [hr, hr'] at halike hafter
  cases halike with
  | ok h => exact hf _ _ h earlier c after after' hafter
  | error failure => exact ⟨.error failure, hafter⟩

end MovesAlong

theorem Blind.bind {x : StepM α} {f f' : α → StepM β} (hx : Blind cut dx dy x)
    (hf : ∀ a, MovesAlong cut dx dy rel' (f a) (f' a)) :
    MovesAlong cut dx dy rel' (x >>= f) (x >>= f') :=
  MovesAlong.bind hx fun a a' h => by
    rw [← h]
    exact hf a

theorem Blind.option {k : Option α → StepM β} (hsome : ∀ a, Blind cut dx dy (k (some a)))
    (hnone : Blind cut dx dy (k none)) (found : Option α) : Blind cut dx dy (k found) := by
  cases found with
  | none => exact hnone
  | some a => exact hsome a

/-! ## Results of what works with the desktop -/

theorem result_topWindow (c : StepContext) (w : Workspace) : topWindow.result c w =
    (((w.world.desktop.check "top_window_rect").map fun _ => w.world.desktop.window).mapError
      .platform, w) := by
  simp only [topWindow, result_bind, result_get]
  unfold Desktop.topWindow
  cases w.world.desktop.check "top_window_rect" <;> rfl

/-- What is done is recorded, unless it fails. -/
theorem result_act {action : DesktopAction} (h : ∀ title, action ≠ .bringToFront title)
    (c : StepContext) (w : Workspace) : (act action).result c w =
      match w.world.desktop.check action.method with
      | .ok _ => (.ok (), { w with world := { w.world with
          desktop := { w.world.desktop with actions := action :: w.done } } })
      | .error fault => (.error (.platform fault), w) := by
  simp only [act, result_bind, result_get, World.act, Desktop.act_of_ne h]
  cases w.world.desktop.check action.method <;> rfl

/-! ## Parts that do not look at the window -/

theorem withSymbols_blind (f : SymbolTable → SymbolTable × Except ExprError α) :
    Blind cut dx dy (withSymbols f) := by
  rintro earlier c w _ ⟨new, hnew, rfl⟩
  rw [result_withSymbols, result_withSymbols]
  refine ⟨?_, new, hnew, rfl⟩
  change Alike Eq _ ((f w.symbols).2.mapError Failure.expression)
  cases (f w.symbols).2 with
  | error e => exact .error _
  | ok a => exact .ok rfl

theorem evaluate_blind (source : String) : Blind cut dx dy (evaluate source) :=
  withSymbols_blind _

theorem arguments_blind (fields : List Field) (args : Entries Value) :
    Blind cut dx dy (arguments fields args) := by
  unfold arguments
  split
  · exact .pure rfl
  · exact .throw _

theorem valueOf_blind (v : Value) : Blind cut dx dy (valueOf v) := by
  unfold valueOf
  split
  · exact evaluate_blind _
  · exact .pure rfl

theorem numberOf_blind (v : Value) : Blind cut dx dy (numberOf v) := by
  unfold numberOf
  split
  · exact .pure rfl
  · split
    · exact .pure rfl
    · exact .pure rfl
    · refine (valueOf_blind v).bind fun v => ?_
      split
      · exact .pure rfl
      · exact .pure rfl
      · split
        · exact .pure rfl
        · exact .throw _

theorem numberOr_blind (default : Binary64) (v : Value) :
    Blind cut dx dy (numberOr default v) := (numberOf_blind v).bind fun _ => .pure rfl

theorem durationOf_blind (seconds : Binary64) : Blind cut dx dy (durationOf seconds) := by
  unfold durationOf
  split
  · exact .pure rfl
  · exact .throw _

theorem secondsOf_blind (v : Value) : Blind cut dx dy (secondsOf v) :=
  (numberOr_blind .zero v).bind durationOf_blind

theorem pause_blind (d : Duration) : Blind cut dx dy (pause d) := by
  rintro earlier c w _ ⟨new, hnew, rfl⟩
  have hpause : ∀ w, (pause d).result c w = (.ok (), { w with world := w.world.sleep d }) :=
    fun _ => rfl
  obtain ⟨hsleep, hdesktop⟩ := w.world.sleep_withDesktop d
    { w.world.desktop.windowMoved dx dy with actions := new.map (·.moved cut dx dy) ++ earlier }
  rw [hpause, hpause]
  refine ⟨.ok rfl, new, ?_, ?_⟩
  · unfold Workspace.done
    rw [hdesktop]
    exact hnew
  · unfold Workspace.windowMoved
    rw [hsleep, hdesktop]

theorem record_blind : Blind cut dx dy record := by
  rintro earlier c w _ ⟨new, hnew, rfl⟩
  exact ⟨.ok rfl, new, hnew, rfl⟩

theorem screenRecords_blind (screen : String) : Blind cut dx dy (screenRecords screen) :=
  (evaluate_blind _).bind fun _ => .pure rfl

/-! ## Parts that do -/

theorem topWindow_movesAlong :
    MovesAlong cut dx dy (fun r r' => r' = r.moved dx dy) topWindow topWindow := by
  rintro earlier c w _ ⟨new, hnew, rfl⟩
  refine ⟨?_, new, ?_⟩
  · rw [result_topWindow, result_topWindow]
    change Alike _ _ (((w.world.desktop.check "top_window_rect").map fun _ =>
      w.world.desktop.window.moved dx dy).mapError Failure.platform)
    cases w.world.desktop.check "top_window_rect" with
    | error fault => exact .error _
    | ok _ => exact .ok rfl
  · rw [result_topWindow, result_topWindow]
    exact ⟨hnew, rfl⟩

/-- An action of the pointer is done in one run exactly if it is done in the other one. -/
theorem act_movesAlong {action : DesktopAction} (h : ∀ title, action ≠ .bringToFront title) :
    MovesAlong cut dx dy Eq (act action) (act (action.moved cut dx dy)) := by
  rintro earlier c w _ ⟨new, hnew, rfl⟩
  have hmoved : ∀ title, action.moved cut dx dy ≠ .bringToFront title := by
    cases action with
    | bringToFront title => exact absurd rfl (h title)
    | _ => exact fun _ hne => by cases hne
  have hmethod : (action.moved cut dx dy).method = action.method := by
    cases action <;> rfl
  have hcheck : ∀ actions, (w.windowMoved dx dy actions).world.desktop.check action.method =
      w.world.desktop.check action.method := fun _ => rfl
  rw [result_act h, result_act hmoved, hmethod, hcheck]
  cases w.world.desktop.check action.method with
  | error fault => exact ⟨.error _, new, hnew, rfl⟩
  | ok _ => exact ⟨.ok rfl, action :: new, congrArg (action :: ·) hnew, rfl⟩

end Parts

end StepM

/-! ## Clicks -/

section Clicks

open StepM

variable {cut : Int → Int} {dx dy : Int}

/-- Arithmetic that makes `cut` of exact results. -/
abbrev cutting (cut : Int → Int) (n : Int) : StepM Int := return cut n

theorem offset_cutting (a b : Int) (p : Point) :
    p.offset (cutting cut) a b = pure (p.moved cut a b) := rfl

theorem centerWith_blind (b : Box) : Blind cut dx dy (b.centerWith (cutting cut)) := .pure rfl

/-- Exact results may be cut at each step or at the end. -/
class CutsLate (cut : Int → Int) : Prop where
  cut_add (a b : Int) : cut (cut a + b) = cut (a + b)

variable [CutsLate cut]

theorem Point.moved_moved (p : Point) (a b dx dy : Int) :
    (p.moved cut a b).moved cut dx dy = p.moved cut (a + dx) (b + dy) := by
  have hcut : ∀ n k, cut (cut n + k) = cut (n + k) := CutsLate.cut_add
  unfold moved
  rw [hcut, hcut, Int.add_assoc, Int.add_assoc]

/-- It does not matter which of two offsets is added first. -/
theorem Point.moved_comm (p : Point) (a b dx dy : Int) :
    (p.moved cut dx dy).moved cut a b = (p.moved cut a b).moved cut dx dy := by
  rw [moved_moved, moved_moved, Int.add_comm dx, Int.add_comm dy]

namespace MouseClick

variable (c : MouseClick)

omit [CutsLate cut] in
theorem aim_blind : Blind cut dx dy c.aim := by
  refine (numberOr_blind _ _).bind fun nth => ?_
  dsimp only
  split
  · exact Blind.bind (.pure rfl) (Blind.option (fun box => .pure rfl) (.throw _))
  · exact (evaluate_blind _).bind fun _ =>
      Blind.bind (.pure rfl) (Blind.option (fun box => .pure rfl) (.throw _))
  · exact (valueOf_blind _).bind fun _ =>
      Blind.bind (.pure rfl) (Blind.option (fun box => .pure rfl) (.throw _))
  · refine (evaluate_blind _).bind fun v => ?_
    split
    · exact Blind.bind (.pure rfl) (Blind.option (fun box => .pure rfl) (.throw _))
    · exact Blind.bind (.pure rfl) (Blind.option (fun box => .pure rfl) (.throw _))
  · exact (screenRecords_blind _).bind fun _ =>
      Blind.bind (.pure rfl) (Blind.option (fun box => .pure rfl) (.throw _))

omit [CutsLate cut] in
theorem shift_blind (box : Box) : Blind cut dx dy (c.shift (cutting cut) box) := by
  unfold shift
  dsimp only
  split
  · exact .pure rfl
  · exact .pure rfl

/-- The origin of the window is added once to the point that is clicked on. -/
theorem point_movesAlong (box : Box) (shift : Int × Int) (window : WindowRect) :
    MovesAlong cut dx dy (fun p p' => p' = p.moved cut dx dy)
      (c.point (cutting cut) box shift window)
      (c.point (cutting cut) box shift (window.moved dx dy)) := by
  refine (centerWith_blind box).bind fun middle => ?_
  rw [offset_cutting, pure_bind, pure_bind]
  exact .pure (Point.moved_moved _ window.x window.y dx dy).symm

/-- So it is to where a drag goes to: to the middle of a box, or with the start of the drag. -/
theorem destination_movesAlong (start : Point) (window : WindowRect) :
    MovesAlong cut dx dy (fun p p' => p' = p.map (·.moved cut dx dy))
      (c.destination? (cutting cut) start window)
      (c.destination? (cutting cut) (start.moved cut dx dy) (window.moved dx dy)) := by
  unfold destination?
  split
  · refine (centerWith_blind _).bind fun middle => ?_
    rw [offset_cutting, offset_cutting, pure_bind, pure_bind]
    exact .pure (congrArg some (Point.moved_moved _ window.x window.y dx dy).symm)
  · split
    · rw [offset_cutting, offset_cutting, pure_bind, pure_bind]
      exact .pure (congrArg some (Point.moved_comm _ _ _ _ _))
    · exact .pure rfl

theorem perform_movesAlong (place : Point) (window : WindowRect) :
    MovesAlong cut dx dy Eq (c.perform (cutting cut) place window)
      (c.perform (cutting cut) (place.moved cut dx dy) (window.moved dx dy)) := by
  unfold perform
  dsimp only
  split
  · refine (c.destination_movesAlong place window).bind fun target target' h => ?_
    rw [h]
    cases target with
    | none => exact .throw _
    | some target => exact act_movesAlong (by simp)
  · refine (numberOr_blind _ _).bind fun interval => ?_
    split
    · exact act_movesAlong (by simp)
    · exact .throw _

theorem moveOn_movesAlong (place : Point) :
    MovesAlong cut dx dy Eq (c.moveOn (cutting cut) place)
      (c.moveOn (cutting cut) (place.moved cut dx dy)) := by
  unfold moveOn
  split
  · rw [offset_cutting, offset_cutting, pure_bind, pure_bind, Point.moved_comm]
    exact act_movesAlong (by simp)
  · exact .pure rfl

end MouseClick

theorem mouseClickWith_movesAlong (args : Entries Value) :
    MovesAlong cut dx dy Eq (mouseClickWith (cutting cut) args)
      (mouseClickWith (cutting cut) args) := by
  refine (arguments_blind _ _).bind fun r => (MouseClick.aim_blind _).bind fun box =>
    (MouseClick.shift_blind _ box).bind fun shift => topWindow_movesAlong.bind
      fun window window' hwindow => ?_
  rw [hwindow]
  refine (MouseClick.point_movesAlong _ box shift window).bind fun place place' hplace => ?_
  rw [hplace]
  exact (act_movesAlong (by simp)).bind fun _ _ _ => (secondsOf_blind _).bind fun _ =>
    (pause_blind _).bind fun _ => (MouseClick.perform_movesAlong _ place window).bind fun _ _ _ =>
      (MouseClick.moveOn_movesAlong _ place).bind fun _ _ _ => (secondsOf_blind _).bind fun _ =>
        (pause_blind _).bind fun _ => record_blind

end Clicks

instance : CutsLate id := ⟨fun _ _ => rfl⟩

/-- What the machine keeps of an exact result. -/
def machineCut (n : Int) : Int := n.bmod Word.count64

instance : CutsLate machineCut := ⟨fun _ _ => Int.bmod_add_bmod⟩

theorem pure_eq_cutting : (pure : Int → StepM Int) = cutting id := rfl

theorem machine_eq_cutting : StepM.machine = cutting machineCut := rfl

/-- A second run ends as a first one does, with the same variables, and does what the first one does
with all points moved. Nothing else tells them apart but where the window is. -/
structure Follows (cut : Int → Int) (dx dy : Int) (earlier : List DesktopAction)
    (first second : Except Failure Unit × Workspace) : Prop where
  outcome : second.1 = first.1
  symbols : second.2.symbols = first.2.symbols
  actions : ∃ new, first.2.done = new ++ earlier ∧
    second.2.done = new.map (·.moved cut dx dy) ++ earlier
  rest : second.2 = first.2.windowMoved dx dy second.2.done

theorem StepM.MovesAlong.follows {cut : Int → Int} {dx dy : Int} {step : StepM Unit}
    (h : MovesAlong cut dx dy Eq step step) (c : StepContext) (w : Workspace) :
    Follows cut dx dy w.done (step.result c w) (step.result c (w.windowMoved dx dy w.done)) := by
  have hstart : w.Moved cut dx dy w.done (w.windowMoved dx dy w.done) := ⟨[], rfl, rfl⟩
  obtain ⟨halike, new, hfirst, hsecond⟩ := h w.done c w _ hstart
  exact {
    outcome := halike.eq.symm
    symbols := by rw [hsecond]; rfl
    actions := ⟨new, hfirst, by rw [hsecond]; rfl⟩
    rest := by rw [hsecond]; rfl }

/-- A click under a window that stands elsewhere ends in the same way, with the same variables, and
all that it does is moved as the window is: exactly, if coordinates are exact integers, and up to
what the machine cuts off if they are words. -/
theorem clicks_move_with_window (args : Entries Value) (c : StepContext) (w : Workspace)
    (dx dy : Int) :
    Follows id dx dy w.done ((mouseClickWith pure args).result c w)
      ((mouseClickWith pure args).result c (w.windowMoved dx dy w.done)) ∧
    Follows machineCut dx dy w.done ((mouseClick args).result c w)
      ((mouseClick args).result c (w.windowMoved dx dy w.done)) := by
  unfold mouseClick
  rw [pure_eq_cutting, machine_eq_cutting]
  exact ⟨(mouseClickWith_movesAlong args).follows c w, (mouseClickWith_movesAlong args).follows c w⟩

/-- A click on the middle of a box in a window, which goes on by an offset. -/
example :
    ((mouseClick [("target_type", .text "direct"), ("post_move", .list [.int 3, .int (-3)]),
        ("target_name", .list [.int 10, .int 40, .int 30, .int 80])]).result ⟨.usual, 0⟩
      ((Workspace.initially []).windowMoved 100 50 [])).2.done =
      [.moveTo ⟨163, 67⟩, .click ⟨160, 70⟩ .single, .moveTo ⟨160, 70⟩] := by decide +kernel

end Deskhand
