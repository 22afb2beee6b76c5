import Deskhand.Random.Draws
import Deskhand.World.Desktop
import Deskhand.World.Network
import Deskhand.World.Programs
import Deskhand.World.Remote
import Deskhand.World.Screens

/-!
# The world of a mission

Everything a mission deals with outside its own variables and stacks: the clock, the desktop, the
screen, the network, files, the source of random numbers and the remote control. Time passes only in
waits, and only then do commands come in.
-/

namespace Deskhand

/-- Everything outside a mission's own state. -/
structure World where
  /-- Milliseconds since the beginning. -/
  clock : Nat
  draws : Draws
  network : Network
  desktop : Desktop
  screens : Screens
  /-- What the scraper makes of every page. -/
  scraped : Value
  external : Entries ExternalOp
  files : Files
  remote : Remote

namespace World

/-- A world in which nothing is on the screen, the network is up and nobody sends commands. -/
def plain (seed : Nat) (files : Files) : World where
  clock := 0
  draws := .ofSeed seed
  network := .up
  desktop := .usual
  screens := .blank
  scraped := .null
  external := []
  files := files
  remote := .absent

/-- Let time pass up to a moment; what is due before it comes in. -/
def passUntil (time : Nat) (w : World) : World :=
  { w with clock := time, remote := w.remote.sendBefore time }

/-- Wait. A wait of no time at all lets nothing come in. -/
def sleep (d : Duration) (w : World) : World :=
  if d.isZero then w else w.passUntil (w.clock + d.waitMillis)

/-- Wait until a time has passed or the mission is cancelled; whether it was the former. A
cancellation that comes in ends the wait with everything that is due by then. -/
def nap (d : Duration) (w : World) : Bool × World :=
  if w.remote.cancelled then (false, w)
  else
    let wake := w.clock + d.waitMillis
    match w.remote.cancellation? w.clock wake with
    | some time => (false, { w.passUntil (time + 1) with clock := time })
    | none => (true, w.passUntil wake)

/-- Ping a site: whether it was reached. -/
def ping (w : World) : Bool × World :=
  let (reached, network) := w.network.ping
  (reached, { w with network })

/-- Let something be drawn. -/
def withDraws {α : Type} (f : Draws → α × Draws) (w : World) : α × World :=
  let drawn := f w.draws
  (drawn.1, { w with draws := drawn.2 })

/-- Draw an integer from a range. -/
def drawNat (lo hi : Nat) (w : World) : Nat × World := w.withDraws (·.nat lo hi)

/-- Draw a real number from a range. -/
def drawReal (lo hi : Binary64) (w : World) : Binary64 × World := w.withDraws (·.real lo hi)

/-- Do an action on the desktop. -/
def act (action : DesktopAction) (w : World) : Except PlatformFault World :=
  (w.desktop.act action).map fun desktop => { w with desktop }

/-- Reload the page. -/
def refreshPage (w : World) : Except PlatformFault World := w.act (.hotkey Desktop.refreshKeys)

/-- Read the screen. -/
def readScreen (w : World) : Except PlatformFault (List ScreenRecord) × World :=
  let (records, screens) := w.screens.read
  (records, { w with screens })

end World

end Deskhand
