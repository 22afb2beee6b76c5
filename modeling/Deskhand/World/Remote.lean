import Deskhand.Value.Basic

/-!
# Remote control

Commands from outside a mission. A controller sends them one after another at set times of the
mission's clock; what it has sent waits in the inbox until the mission comes to the next boundary
between steps. Whoever asks for the status waits for the answer, so the commands after it are sent
no earlier. A cancellation also shows at once in a token that interrupts naps, and stays set.
-/

namespace Deskhand

/-- A command to a mission. -/
inductive Command where
  | pause
  | resume
  | cancel
  | status
  deriving DecidableEq

/-- Where a mission stands. -/
structure Progress where
  index : Nat
  address : String
  stepsExecuted : Nat
  paused : Bool
  lastError : Option String
  deriving DecidableEq

/-- What the sender of a command learns. -/
inductive Reply where
  | accepted
  | progress (p : Progress)
  /-- The mission had ended. -/
  | over
  deriving DecidableEq

/-- A command and the time on the clock at which it is sent. -/
structure Scheduled where
  due : Nat
  command : Command
  deriving DecidableEq

/-- The commands of a mission: those to be sent, in order, those sent and not yet seen, and the
replies so far, the newest first. -/
structure Remote where
  /-- Whether anybody can still send commands. -/
  connected : Bool
  schedule : List Scheduled
  inbox : List Command
  /-- Whether the sender waits for a status. -/
  awaiting : Bool
  cancelled : Bool
  replies : List Reply

namespace Remote

/-- Nobody controls the mission. -/
def absent : Remote := ⟨false, [], [], false, false, []⟩

/-- A controller with a schedule, after some commands were sent ahead of it. -/
def start (ahead : List Command) (schedule : List Scheduled) (r : Remote) : Remote where
  connected := true
  schedule := schedule
  inbox := ahead
  awaiting := false
  cancelled := r.cancelled || ahead.contains .cancel
  replies := []

/-- Send a command. All but a request for the status are acknowledged at once. -/
def send (command : Command) (r : Remote) : Remote :=
  { r with
    inbox := r.inbox ++ [command]
    awaiting := command == .status
    cancelled := r.cancelled || command == .cancel
    replies := if command = .status then r.replies else .accepted :: r.replies }

/-- Send the commands that are due before a time, in order, as far as no status is awaited. -/
def sendBefore (time : Nat) (r : Remote) : Remote :=
  go r.schedule r
where
  go : List Scheduled → Remote → Remote
    | [], r => { r with schedule := [] }
    | s :: rest, r =>
      if r.awaiting || time ≤ s.due then { r with schedule := s :: rest }
      else go rest (r.send s.command)

/-- The time at which a cancellation would come in if nothing but `sendBefore` happened between
`now` and `time`. -/
def cancellation? (now time : Nat) (r : Remote) : Option Nat :=
  if r.awaiting then none else go now r.schedule
where
  go (now : Nat) : List Scheduled → Option Nat
    | [] => none
    | s :: rest =>
      if time ≤ s.due then none
      else match s.command with
        | .cancel => some (max now s.due)
        | .status => none
        | _ => go (max now s.due) rest

/-- Answer the request for the status. -/
def answer (reply : Reply) (r : Remote) : Remote :=
  { r with awaiting := false, replies := reply :: r.replies }

/-- The mission has ended: what was asked and not answered is over, the rest of the schedule is
carried out in vain. The second component is the time at which the controller is done. -/
def finish (clock : Nat) (r : Remote) : Remote × Nat :=
  let r := if r.awaiting then r.answer .over else r
  let replies := r.schedule.foldl (fun replies s =>
    (if s.command = .status then .over else .accepted) :: replies) r.replies
  ({ r with connected := false, schedule := [], inbox := [], replies },
    r.schedule.foldl (fun t s => max t s.due) clock)

end Remote

end Deskhand
