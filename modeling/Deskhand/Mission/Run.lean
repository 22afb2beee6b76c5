import Deskhand.Mission.Control

/-!
# Running missions

Between two steps a mission takes the commands that came in, checks how many steps it may still
execute, and recovers if an exception is open. A run ends when the program does, when the mission
fails or when it is cancelled.
-/

namespace Deskhand

/-- How a mission ended. -/
inductive MissionStatus where
  | completed
  | failed
  | cancelled
  deriving DecidableEq

def MissionStatus.name : MissionStatus → String
  | completed => "completed"
  | failed => "failed"
  | cancelled => "cancelled"

/-- What is said about a run when it is over. -/
structure MissionReport where
  skill : String
  status : MissionStatus
  stepsExecuted : Nat
  lastError : Option String
  deriving DecidableEq

namespace Mission

def modifyRemote (f : Remote → Remote) (m : Mission) : Mission :=
  m.setWorld { m.world with remote := f m.world.remote }

/-- Take a command; whether it cancels the mission. -/
def obey (command : Command) (m : Mission) : Bool × Mission :=
  match command with
  | .cancel => (true, m)
  | .pause => (false, { m with paused := true })
  | .resume => (false, { m with paused := false })
  | .status => (false, m.modifyRemote (·.answer (.progress m.progress)))

/-- Let time pass until the next command is sent. -/
def awaitCommand (due : Nat) (m : Mission) : Mission :=
  let time := max m.world.clock due
  m.setWorld { m.world.passUntil (time + 1) with clock := time }

/-- Take the commands that came in, in order; whether one of them cancels the mission. A mission
that is paused waits for more of them, and goes on if nobody is left to send any. The fuel bounds
how many commands are taken. -/
def takeCommands : Nat → Mission → Bool × Mission
  | 0, m => (false, m)
  | fuel + 1, m =>
    let remote := m.world.remote
    if remote.cancelled then (true, m)
    else if !remote.connected then (false, m)
    else
      match remote.inbox with
      | command :: rest =>
        match (m.modifyRemote fun r => { r with inbox := rest }).obey command with
        | (true, m) => (true, m)
        | (false, m) => takeCommands fuel m
      | [] =>
        if !m.paused then (false, m)
        else
          match remote.schedule with
          | s :: _ => takeCommands fuel (m.awaitCommand s.due)
          | [] => (false, { m.modifyRemote fun r => { r with connected := false } with
              paused := false })

/-- Take the commands that came in. Every command is awaited at most once and taken once. -/
def drain (m : Mission) : Bool × Mission :=
  let remote := m.world.remote
  m.takeCommands (2 * remote.schedule.length + remote.inbox.length + 1)

/-- How a mission stands after a turn. -/
inductive Turn where
  | goOn
  | over
  | cancelled
  | aborted (fault : SkillFault)

/-- Whether as many steps were executed as may be. -/
def outOfSteps (m : Mission) : Option Nat := m.config.maxSteps.filter (· ≤ m.stepsExecuted)

/-- Run the instruction that comes next, or the handler that stands in for it. -/
def step (m : Mission) : Turn × Mission :=
  match m.tick with
  | (.error fault, m) => (.aborted fault, m)
  | (.ok _, m) => (.goOn, m)

/-- From one boundary between steps to the next. -/
def turn (m : Mission) : Turn × Mission :=
  if m.isDone then (.over, m)
  else
    match m.drain with
    | (true, m) => (.cancelled, m.unwind)
    | (false, m) =>
      match m.outOfSteps with
      | some limit => (.over, m.fail s!"step budget of {limit} exhausted")
      | none =>
        if m.symbols.flag Reserved.inException && !m.handling then
          match m.program.handlerFor? m.index with
          | some handler => { m with handling := true, index := handler }.step
          | none => (.goOn, m.recover)
        else m.step

/-- The report on a mission that is over. -/
def report (cancelled : Bool) (m : Mission) : Except SkillFault MissionReport :=
  let status : MissionStatus :=
    if cancelled then .cancelled
    else if m.symbols.flag Reserved.missionFailed then .failed
    else .completed
  if status = .completed ∧ !m.calls.isEmpty then .error (.nonEmptyCallStack m.calls.size)
  else .ok ⟨m.program.name, status, m.stepsExecuted, m.lastError⟩

/-- Run a mission for at most so many turns: its report and its last state, unless there were not
enough turns. -/
def run : Nat → Mission → Option (Except SkillFault MissionReport × Mission)
  | 0, _ => none
  | fuel + 1, m =>
    match m.turn with
    | (.goOn, m) => run fuel m
    | (.over, m) => some (m.report false, m)
    | (.cancelled, m) => some (m.report true, m)
    | (.aborted fault, m) => some (.error fault, m)

/-- Give a controller to a mission. -/
def control (ahead : List Command) (schedule : List Scheduled) (m : Mission) : Mission :=
  m.modifyRemote (·.start ahead schedule)

/-- Let the controller of a mission that is over carry out the rest of its schedule. -/
def endControl (m : Mission) : Mission :=
  let (remote, clock) := m.world.remote.finish m.world.clock
  m.setWorld { m.world with remote, clock }

end Mission

end Deskhand
