import Deskhand.Step.Screen
import Deskhand.Text.Case

/-!
# Pointer steps

Moving, clicking, dragging and scrolling. What a step aims at is a box in the pixels of the window
on top; the origin of that window is added before anything is done. As in `Screen.Geometry` the
arithmetic on pixels is a parameter, and a step without it uses that of the machine.
-/

namespace Deskhand

/-- A pair of numbers: a list of two, or an object with `x` and `y`. -/
def pair? : Value → Option (Binary64 × Binary64)
  | .list [x, y] => do some (← x.real?, ← y.real?)
  | .object entries => do
    let x ← (Entries.get? "x" entries).bind Value.real?
    let y ← (Entries.get? "y" entries).bind Value.real?
    some (x, y)
  | _ => none

/-- The kind of click that an action in small letters names. -/
def clickKind? (action : String) (interval : Nat) : Option ClickKind :=
  if action = "" ∨ Text.occursIn "single" action ∨ action = "click" then some .single
  else if Text.occursIn "double" action then some (.double interval)
  else if Text.occursIn "triple" action then some .triple
  else if Text.occursIn "right" action then some .right
  else none

/-- The place on a box with a given middle that a side names; the middle if it names none. -/
def Box.anchor (side : String) (middle : Point) (b : Box) : Point :=
  match side with
  | "left" => ⟨b.left, middle.y⟩
  | "right" => ⟨b.right, middle.y⟩
  | "top" => ⟨middle.x, b.top⟩
  | "bottom" => ⟨middle.x, b.bottom⟩
  | _ => middle

/-! ## Mouse Click -/

/-- What to click on, and how. -/
structure MouseClick where
  action : String
  actionArgs : Value
  screen : String
  target : Value
  targetType : String
  nth : Value
  side : String
  unit : String
  offset : Value
  movePause : Value
  postMove : Value
  postWait : Value

namespace MouseClick

def fields : List Field :=
  [.textOrEmpty "action", .anyOrNull "action_args", .textOrEmpty "screen", .any "target_name",
    .textOr "target_type" "anchor text", .anyOrNull "nth", .textOrEmpty "offset_from",
    .textOrEmpty "offset_unit", .anyOrNull "offset", .anyOrNull "move_pause",
    .anyOrNull "post_move", .anyOrNull "post_wait"]

def ofEntries (r : Entries Value) : MouseClick where
  action := r.text "action"
  actionArgs := r.value "action_args"
  screen := r.text "screen"
  target := r.value "target_name"
  targetType := r.text "target_type"
  nth := r.value "nth"
  side := r.text "offset_from"
  unit := r.text "offset_unit"
  offset := r.value "offset"
  movePause := r.value "move_pause"
  postMove := r.value "post_move"
  postWait := r.value "post_wait"

/-- The box that an item of a list denotes, or that it has as its location. -/
def itemBox? (item : Value) : Option Box :=
  (Box.ofValue? item).or ((item.field? "loc").bind Box.ofValue?)

/-- The box that the step aims at. -/
def aim (c : MouseClick) : StepM Box := do
  let name := c.target.display
  let nth := ((← StepM.numberOr .zero c.nth).max .zero).toNat64
  let found ← match c.targetType with
    | "direct" => pure (Box.ofValue? c.target)
    | "var name" => do pure (Box.ofValue? (← StepM.evaluate name))
    | "expr" => do pure (Box.ofValue? (← StepM.valueOf c.target))
    | "list" => do
      match ← StepM.evaluate name with
      | .list items => pure ((items[nth]?).bind itemBox?)
      | _ => pure none
    | kind => do
      let records ← screenRecords c.screen
      let fitting := records.filter fun r => r.name == name && (kind == "" || r.kind == kind)
      pure ((fitting[nth]?).map (·.box))
  match found with
  | some box => return box
  | none => throw (.noClickTarget name c.targetType)

section Points

variable {m : Type → Type} [Monad m] (plain : Int → m Int)

/-- By how much the click is off the anchor, in pixels or in sizes of the box. -/
def shift (c : MouseClick) (box : Box) : m (Int × Int) := do
  let (dx, dy) := (pair? c.offset).getD (.zero, .zero)
  if c.unit = "box" then
    let width ← box.widthWith plain
    let height ← box.heightWith plain
    return ((dx * .ofInt width).round.toInt64, (dy * .ofInt height).round.toInt64)
  else return (dx.round.toInt64, dy.round.toInt64)

/-- The point on the desktop that is clicked on. -/
def point (c : MouseClick) (box : Box) (shift : Int × Int) (window : WindowRect) : m Point := do
  let middle ← box.centerWith plain
  let place ← (box.anchor c.side middle).offset plain shift.1 shift.2
  place.offset plain window.x window.y

/-- Where a drag goes to: the middle of a box in the window, or an offset from where it starts. -/
def destination? (c : MouseClick) (start : Point) (window : WindowRect) : m (Option Point) :=
  match Box.ofValue? c.actionArgs with
  | some box => do
    let middle ← box.centerWith plain
    return some (← middle.offset plain window.x window.y)
  | none =>
    match pair? c.actionArgs with
    | some (dx, dy) => do return some (← start.offset plain dx.toInt64 dy.toInt64)
    | none => return none

end Points

section Arithmetic

variable (plain : Int → StepM Int)

/-- Click or drag at a point. -/
def perform (c : MouseClick) (place : Point) (window : WindowRect) : StepM Unit := do
  let action := Text.lower c.action
  if Text.occursIn "drag" action then
    match ← c.destination? plain place window with
    | some target => StepM.act (.drag place target)
    | none => throw .noDestination
  else
    let interval := (← StepM.numberOr .zero c.actionArgs) * .ofInt 1000
    match clickKind? action interval.toNat64 with
    | some kind => StepM.act (.click place kind)
    | none => throw (.unknownClick c.action)

/-- Move the pointer on from where it has clicked, if an offset is given. -/
def moveOn (c : MouseClick) (place : Point) : StepM Unit :=
  match pair? c.postMove with
  | some (dx, dy) => do StepM.act (.moveTo (← place.offset plain dx.toInt64 dy.toInt64))
  | none => return ()

end Arithmetic

end MouseClick

/-- Move the pointer to what the step aims at, and click or drag. -/
def mouseClickWith (plain : Int → StepM Int) (args : Entries Value) : StepM Unit := do
  let c := MouseClick.ofEntries (← StepM.arguments MouseClick.fields args)
  let box ← c.aim
  let shift ← c.shift plain box
  let window ← StepM.topWindow
  let point ← c.point plain box shift window
  StepM.act (.moveTo point)
  StepM.pause (← StepM.secondsOf c.movePause)
  c.perform plain point window
  c.moveOn plain point
  StepM.pause (← StepM.secondsOf c.postWait)
  StepM.record

def mouseClick (args : Entries Value) : StepM Unit := mouseClickWith StepM.machine args

/-! ## Mouse Move and Mouse Scroll -/

/-- Move the pointer to a point, or by an offset if no point is given. -/
def mouseMove (args : Entries Value) : StepM Unit := do
  let r ← StepM.arguments [.anyOrNull "x_amount_var", .anyOrNull "y_amount_var",
    .anyOrNull "x_destination_var", .anyOrNull "y_destination_var", .anyOrNull "postwait"] args
  let toX ← StepM.numberOf (r.value "x_destination_var")
  let toY ← StepM.numberOf (r.value "y_destination_var")
  match toX, toY with
  | none, none =>
    let dx ← StepM.numberOr .zero (r.value "x_amount_var")
    let dy ← StepM.numberOr .zero (r.value "y_amount_var")
    StepM.act (.moveBy dx.round.toInt64 dy.round.toInt64)
  | some x, some y => StepM.act (.moveTo ⟨x.round.toInt64, y.round.toInt64⟩)
  | _, _ => throw .oneDestination
  StepM.pause (← StepM.secondsOf (r.value "postwait"))

/-- The random part of a scroll. -/
def scrollJitter (lo hi : Option Binary64) : StepM Binary64 :=
  match lo, hi with
  | some lo, some hi => if lo.lt hi then StepM.randomBetween lo hi else return .zero
  | _, _ => return .zero

def mouseScrollFields : List Field :=
  [.textOrEmpty "action", .any "amount", .textOrEmpty "unit", .anyOrNull "resolution",
    .anyOrNull "random_min", .anyOrNull "random_max", .anyOrNull "postwait"]

/-- The number of units that a step scrolls by, before its direction is looked at. -/
def scrollUnits (r : Entries Value) : StepM Int := do
  let amount ← match ← StepM.numberOf (r.value "amount") with
    | some x => pure x
    | none => throw .noAmount
  let resolution ← resolutionOf (r.value "resolution")
  let units ←
    if r.text "unit" = "screen" then do
      let window ← StepM.topWindow
      pure (Binary64.ofInt window.height * amount / .ofInt 100 / resolution)
    else pure amount
  let lo ← StepM.numberOf (r.value "random_min")
  let hi ← StepM.numberOf (r.value "random_max")
  let jitter ← scrollJitter lo hi
  return (units + jitter).round.toInt64

/-- Whether the scroll goes downward. -/
def scrollsDown (r : Entries Value) : Bool := Text.occursIn "down" (Text.lower (r.text "action"))

/-- As many units downward, whichever way they were. -/
def downward {m : Type → Type} [Monad m] (plain : Int → m Int) (units : Int) : m Int := do
  let size ← plain units.natAbs
  plain (-size)

/-- Scroll by a number of units or by a part of the window's height. -/
def mouseScrollWith (plain : Int → StepM Int) (args : Entries Value) : StepM Unit := do
  let r ← StepM.arguments mouseScrollFields args
  let units ← scrollUnits r
  let units ← if scrollsDown r then downward plain units else pure units
  StepM.act (.scroll units)
  StepM.pause (← StepM.secondsOf (r.value "postwait"))

def mouseScroll (args : Entries Value) : StepM Unit := mouseScrollWith StepM.machine args

end Deskhand
