import Deskhand.Screen.Record
import Deskhand.World.Platform

/-!
# Screens

What the reader of the screen reports: a queue of readings, each of which may fail, then one reading
for ever.
-/

namespace Deskhand

/-- The readings to come, and how many were made. -/
structure Screens where
  queue : List (Except PlatformFault (List ScreenRecord))
  otherwise : List ScreenRecord
  reads : Nat

namespace Screens

/-- A screen on which nothing is found. -/
def blank : Screens := ⟨[], [], 0⟩

/-- One reading, and the screens afterwards. -/
def read (s : Screens) : Except PlatformFault (List ScreenRecord) × Screens :=
  match s.queue with
  | [] => (.ok s.otherwise, { s with reads := s.reads + 1 })
  | r :: rest => (r, { s with queue := rest, reads := s.reads + 1 })

end Screens

end Deskhand
