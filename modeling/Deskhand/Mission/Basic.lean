import Deskhand.CallStack
import Deskhand.Mission.Workspace
import Deskhand.Program.Basic
import Deskhand.Recovery.Retry

/-!
# Missions

The state of a program that runs: what its steps work on, the stacks, and where it is. Everything
that happens to a mission is a function on this state.
-/

namespace Deskhand

/-- A program that runs. -/
structure Mission where
  program : Program
  config : RunConfig
  work : Workspace
  calls : CallStack
  skills : SkillStack
  /-- The instruction that comes next. -/
  index : Nat
  /-- Whether the block of an exception handler is being run. -/
  handling : Bool
  stepsExecuted : Nat
  lastError : Option String
  paused : Bool

namespace Mission

/-- The first action that is neither built in nor registered. -/
def unknownAction? (program : Program) (external : Entries ExternalOp) : Option Instruction :=
  program.instructions.toList.find? fun i =>
    match i.op with
    | .action kind _ => !builtinStepTypes.contains kind && !external.has kind
    | _ => false

/-- The mission of a program before its first step. -/
def initial (program : Program) (world : World) (config : RunConfig) : Mission where
  program := program
  config := config
  work := {
    symbols := SymbolTable.initial.set Reserved.scrollResolution (.int config.scrollResolution)
    recovery := .ofConfig config.recovery
    world := world }
  calls := .empty
  skills := .empty
  index := 0
  handling := false
  stepsExecuted := 0
  lastError := none
  paused := false

/-- Make a mission of a program, all of whose steps must be known. -/
def create (program : Program) (world : World) (config : RunConfig) : Except SkillFault Mission :=
  match unknownAction? program world.external with
  | some i => .error (.unknownStepType i.op.kind i.address.render)
  | none => .ok (initial program world config)

def symbols (m : Mission) : SymbolTable := m.work.symbols

def recovery (m : Mission) : Recovery := m.work.recovery

def world (m : Mission) : World := m.work.world

def setSymbols (t : SymbolTable) (m : Mission) : Mission :=
  { m with work := { m.work with symbols := t } }

def setWorld (w : World) (m : Mission) : Mission := { m with work := { m.work with world := w } }

/-- Replace the variables and the recovery layer, which change together. -/
def setRecovery (t : SymbolTable) (r : Recovery) (m : Mission) : Mission :=
  { m with work := { m.work with symbols := t, recovery := r } }

/-- Whether there is nothing left to run. -/
def isDone (m : Mission) : Bool := Program.sentinel ≤ m.index || m.program.size ≤ m.index

/-- Where the mission stands. -/
def progress (m : Mission) : Progress where
  index := m.index
  address := match m.program.instructions[m.index]? with
    | some i => i.address.render
    | none => "end"
  stepsExecuted := m.stepsExecuted
  paused := m.paused
  lastError := m.lastError

/-- The mission has failed for a reason. -/
def markFailed (reason : String) (m : Mission) : Mission :=
  { m.setSymbols (m.symbols.setFlag Reserved.missionFailed true) with lastError := some reason }

/-- Leave everything that is under way and go to the end. -/
def unwind (m : Mission) : Mission :=
  let (t, r) := m.recovery.clear m.symbols
  { m.setRecovery t r with
    calls := .empty, skills := .empty, handling := false, index := Program.sentinel }

/-- The mission has failed for a reason and ends. -/
def fail (reason : String) (m : Mission) : Mission := (m.markFailed reason).unwind

/-- Why a mission fails whose site cannot be reached. -/
def unreachable (site : String) (attempts : Nat) : String :=
  s!"{site} unreachable after {attempts} attempts"

/-- Reload the page; whether that worked. -/
def refreshPage (m : Mission) : Except PlatformFault Mission :=
  m.world.refreshPage.map fun w => m.setWorld w

/-- Go back to the newest rollback point and close the newest exception: the index to go on from,
which is that of the point, or else that of the step that raised the exception. -/
def rollBack (m : Mission) : Option Nat × Mission :=
  let (address, t, r) := m.recovery.rollBack m.symbols
  let (closed, t, r) := r.resolve t
  (address.or (closed.map (·.raisedAt)), { m.setRecovery t r with handling := false })

/-- The site was reached again: reload the page, which need not work, and go on from the newest
rollback point. -/
def reconnect (m : Mission) : Mission :=
  let m := match m.refreshPage with
    | .ok m => m
    | .error _ => m
  let m := m.setSymbols (m.symbols.setFlag Reserved.netConnected true)
  let (index, m) := m.rollBack
  { m with index := index.getD m.index }

/-- Recover without an exception handler: try to reach the site, and go on or fail. -/
def recover (m : Mission) : Mission :=
  let policy := m.recovery.config.policyFor none
  match m.world.retry policy with
  | (.reconnected _, w) => (m.setWorld w).reconnect
  | (.exhausted attempts, w) => (m.setWorld w).fail (unreachable policy.site attempts)

end Mission

end Deskhand
