import Deskhand.Expr.Division

/-!
# Geometry

Points, boxes and window rectangles in whole pixels. Moving a point by an offset is what carries
window coordinates to the desktop. Sums and differences of pixels are not checked: what they make of
their exact results is a parameter (`plain`). The sizes of a box without a parameter are those that
the machine finds.
-/

namespace Deskhand

/-- A place on the desktop. -/
structure Point where
  x : Int
  y : Int
  deriving DecidableEq

/-- The point moved by an offset. -/
def Point.offset {m : Type → Type} [Monad m] (plain : Int → m Int) (dx dy : Int) (p : Point) :
    m Point := do
  let x ← plain (p.x + dx)
  let y ← plain (p.y + dy)
  return ⟨x, y⟩

/-- A box with sides parallel to the axes. -/
structure Box where
  left : Int
  top : Int
  right : Int
  bottom : Int
  deriving DecidableEq

namespace Box

section Sizes

variable {m : Type → Type} [Monad m] (plain : Int → m Int)

def widthWith (b : Box) : m Int := plain (b.right - b.left)

def heightWith (b : Box) : m Int := plain (b.bottom - b.top)

/-- The middle of the box; a half is cut toward zero. -/
def centerWith (b : Box) : m Point := do
  let x ← plain (b.left + b.right)
  let y ← plain (b.top + b.bottom)
  return ⟨x.tdiv 2, y.tdiv 2⟩

end Sizes

def width (b : Box) : Int := (b.widthWith Expr.wrapped).run

def height (b : Box) : Int := (b.heightWith Expr.wrapped).run

def center (b : Box) : Point := (b.centerWith Expr.wrapped).run

/-- The box with the given sides, in the order in which screen records list them. -/
def ofSides (top left bottom right : Int) : Box := ⟨left, top, right, bottom⟩

/-- The sides in the order top, left, bottom, right. -/
def sides (b : Box) : Value := .list [.int b.top, .int b.left, .int b.bottom, .int b.right]

/-- A number cut to a whole pixel. -/
def pixel? (v : Value) : Option Int := v.real?.map Binary64.toInt64

/-- A box from a list of its sides, or from an object that names them. -/
def ofValue? : Value → Option Box
  | .list [top, left, bottom, right] => do
    some (ofSides (← pixel? top) (← pixel? left) (← pixel? bottom) (← pixel? right))
  | .object sides => do
    let side (name : String) : Option Int := (Entries.get? name sides).bind pixel?
    some ⟨← side "left", ← side "top", ← side "right", ← side "bottom"⟩
  | _ => none

end Box

/-- The rectangle of a window. -/
structure WindowRect where
  x : Int
  y : Int
  width : Int
  height : Int
  deriving DecidableEq

/-- A visible window. -/
structure Window where
  title : String
  rect : WindowRect
  deriving DecidableEq

namespace Value

/-- A point as an object. -/
def ofPoint (p : Point) : Value := .object [("x", .int p.x), ("y", .int p.y)]

/-- A window as an object. -/
def ofWindow (w : Window) : Value :=
  .object [("title", .text w.title), ("rect", .object [("x", .int w.rect.x), ("y", .int w.rect.y),
    ("width", .int w.rect.width), ("height", .int w.rect.height)])]

end Value

end Deskhand
