import Deskhand.Mission.Workspace

/-!
# Waiting

Waiting for a time, and waiting for conditions. The conditions are checked once a second, and once
more when the time is over.
-/

namespace Deskhand

/-- Wait for a time, or for one drawn from a range. -/
def wait (args : Entries Value) : StepM Unit := do
  let r ← StepM.arguments [.anyOrNull "time", .anyOrNull "random_min", .anyOrNull "random_max"] args
  let time := r.value "time"
  if !time.isBlank then StepM.pause (← StepM.secondsOf time)
  else
    let lo := (← StepM.numberOr .zero (r.value "random_min")).max .zero
    let hi := (← StepM.numberOr lo (r.value "random_max")).max .zero
    StepM.pause (← StepM.durationOf (← StepM.randomBetween lo hi))

/-- How often conditions are checked. -/
def pollInterval : Duration := .ofSeconds 1

/-- Whether the conditions that were asked for hold. All of them are evaluated. -/
def eventsHold (needAll : Bool) (events : List String) : StepM Bool := do
  let held ← events.mapM StepM.holds
  return if needAll then held.all id else held.any id

/-- Check conditions until they hold, the time is over or the mission is cancelled. The fuel bounds
the number of checks. -/
def pollEvents (needAll : Bool) (events : List String) (started : Nat) (timeOut : Duration) :
    Nat → StepM Bool
  | 0 => return false
  | fuel + 1 => do
    if ← eventsHold needAll events then return true
    let elapsed := Duration.ofMillis ((← get).world.clock - started)
    if timeOut.nanos ≤ elapsed.nanos then return false
    let nap := pollInterval.min ⟨timeOut.nanos - elapsed.nanos⟩
    if ← StepM.withWorld (·.nap nap) then pollEvents needAll events started timeOut fuel
    else return false

/-- How many checks there can be: one at the start of every second, and one at the end. -/
def pollLimit (timeOut : Duration) : Nat :=
  (timeOut.nanos + (Duration.nanosPerSecond - 1)) / Duration.nanosPerSecond + 1

def waitUntilFields : List Field :=
  [.any "events", .textOrEmpty "events_relation", .anyOrNull "time_out", .textOrEmpty "result",
    .textOrEmpty "flag"]

/-- What the step says about a wait that has ended. -/
def waitStatus (received : Bool) : String :=
  if received then "Completed:Event Received" else "Error:Timed Out"

/-- Wait for conditions. -/
def waitUntil (args : Entries Value) : StepM Unit := do
  let r ← StepM.arguments waitUntilFields args
  let events := (r.value "events").textList
  let timeOut ← StepM.secondsOf (r.value "time_out")
  let needAll := r.text "events_relation" == "all"
  let started := (← get).world.clock
  let received ← pollEvents needAll events started timeOut (pollLimit timeOut)
  StepM.store (r.text "result") (.text (waitStatus received))
  StepM.store (r.text "flag") (.bool received)

end Deskhand
