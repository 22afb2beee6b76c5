import Deskhand.Screen.Geometry
import Deskhand.World.Duration
import Deskhand.World.Platform

/-!
# The desktop

Pointer, keyboard and windows. Every action is recorded instead of being performed. Chosen methods
can be made to fail; such a call is not recorded.
-/

namespace Deskhand

/-- The kinds of clicks. -/
inductive ClickKind where
  | single
  | double (interval : Nat)
  | triple
  | right
  deriving DecidableEq

def ClickKind.name : ClickKind → String
  | single => "single"
  | double _ => "double"
  | triple => "triple"
  | right => "right"

/-- An action on the desktop. -/
inductive DesktopAction where
  | moveTo (point : Point)
  | moveBy (dx dy : Int)
  | click (point : Point) (kind : ClickKind)
  | drag (start stop : Point)
  | scroll (units : Int)
  | hotkey (keys : List String)
  | press (key : String)
  | typeText (text : String) (interval : Duration)
  | captureScreen (path : String)
  | savePage (path : String)
  | openApp (link : String) (args : List String)
  | bringToFront (title : String)
  deriving DecidableEq

/-- The method that an action is an instance of. -/
def DesktopAction.method : DesktopAction → String
  | moveTo _ => "move_to"
  | moveBy _ _ => "move_by"
  | click _ _ => "click"
  | drag _ _ => "drag_to"
  | scroll _ => "scroll"
  | hotkey _ => "hotkey"
  | press _ => "press"
  | typeText _ _ => "type_text"
  | captureScreen _ => "capture_screen"
  | savePage _ => "save_page"
  | openApp _ _ => "open_app"
  | bringToFront _ => "bring_to_front"

/-- The windows, the actions so far and the methods that fail. -/
structure Desktop where
  /-- The rectangle of the window on top. -/
  window : WindowRect
  /-- The visible windows, the one on top first. -/
  windows : List Window
  /-- What was done, the newest first. -/
  actions : List DesktopAction
  failing : List String

namespace Desktop

/-- A desktop with one window. -/
def withWindow (rect : WindowRect) : Desktop := ⟨rect, [⟨"headless", rect⟩], [], []⟩

/-- A full screen of usual size. -/
def usual : Desktop := withWindow ⟨0, 0, 1920, 1080⟩

/-- Replace the windows; the first one, if there is one, gives the rectangle on top. -/
def setWindows (windows : List Window) (d : Desktop) : Desktop :=
  { d with windows, window := (windows.head?.map (·.rect)).getD d.window }

/-- Whether a method works. -/
def check (method : String) (d : Desktop) : Except PlatformFault Unit :=
  if method ∈ d.failing then .error (.unsupported method) else .ok ()

/-- Do an action. Only a window that is listed can be brought to the front. -/
def act (action : DesktopAction) (d : Desktop) : Except PlatformFault Desktop := do
  d.check action.method
  match action with
  | .bringToFront title =>
    if !d.windows.any (·.title = title) then
      throw (.invalidArgument s!"no window titled '{title}'")
  | _ => pure ()
  return { d with actions := action :: d.actions }

/-- The rectangle of the window on top. -/
def topWindow (d : Desktop) : Except PlatformFault WindowRect := do
  d.check "top_window_rect"
  return d.window

/-- The visible windows. -/
def listWindows (d : Desktop) : Except PlatformFault (List Window) := do
  d.check "list_windows"
  return d.windows

/-- Reloading the page is a key chord. -/
def refreshKeys : List String := ["ctrl", "f5"]

end Desktop

end Deskhand
