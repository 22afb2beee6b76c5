import Deskhand.Mission.Basic
import Deskhand.Skill.Fault
import Deskhand.Step.Action

/-!
# Steps of control

Conditions, loops, jumps, calls and returns, and the blocks of exception handlers. A step either
says where control goes next, or fails, or ends the run by a structural fault.
-/

namespace Deskhand

/-- What comes of a step. -/
inductive Outcome where
  | next (index : Nat)
  | failed (failure : Failure)
  | aborted (fault : SkillFault)

namespace Mission

/-- Run a part of a step on the workspace. -/
def runStep {α : Type} (step : StepM α) (m : Mission) : Except Failure α × Mission :=
  let (result, work) := step.result ⟨m.config, m.index⟩ m.work
  (result, { m with work })

/-- Go where the value of a part of a step says. -/
def follow (step : StepM Nat) (m : Mission) : Outcome × Mission :=
  match m.runStep step with
  | (.ok index, m) => (.next index, m)
  | (.error failure, m) => (.failed failure, m)

/-- Go on if a condition holds, else to its second part. -/
def checkCondition (condition : String) (ifElse : Nat) (m : Mission) : Outcome × Mission :=
  m.follow do return if ← StepM.holds condition then m.index + 1 else ifElse

/-- Whether the counter of a loop is below its count. -/
def countsOn (count counter : String) : StepM Bool := do
  let limit ← StepM.numberOr .zero (.text count)
  match (← StepM.valueOfName counter).real? with
  | some current => return current.lt limit
  | none => throw (.counterNotNumber counter)

/-- Enter the body of a loop once more, or leave it. -/
def enterLoop (guard count counter : String) (stop : Nat) (m : Mission) : Outcome × Mission :=
  m.follow do
    let goOn ← if Text.isBlankText guard then countsOn count counter else StepM.holds guard
    return if goOn then m.index + 1 else stop

/-- The integer of 64 bits in a variable; zero if there is none. -/
def counterValue (v : Value) : Int :=
  match v with
  | .number (.int n) => if Value.IsInt64 n then n else 0
  | _ => 0

/-- Jump, after counting up. -/
def jump (target : Nat) (increment : Option String) (m : Mission) : Outcome × Mission :=
  match increment with
  | none => (.next target, m)
  | some counter =>
    let n := counterValue (m.symbols.value counter) + 1
    (.next target, m.setSymbols (m.symbols.set counter (.int n)))

/-! ## Calls and returns -/

/-- Push a frame for a call and bind the argument; the argument. -/
def enter (arg output : String) (m : Mission) : Value × Mission :=
  let t := m.symbols
  let frame : CallFrame :=
    ⟨m.index + 1, t.value Reserved.fout, t.value Reserved.fin, output⟩
  let (calls, name) := (m.calls.pushCall frame arg).popArg
  let name := Text.trim (name.getD "")
  let v := if name = "" then .null else t.value name
  (v, { m.setSymbols (t.set Reserved.fin v) with calls })

/-- Call a function. -/
def callFunction (entry : Nat) (param arg output : String) (m : Mission) : Outcome × Mission :=
  let (v, m) := m.enter arg output
  let param := Text.trim param
  (.next entry, if param = "" then m else m.setSymbols (m.symbols.set param v))

/-- Call a skill. -/
def useSkill (name : String) (entry : Nat) (arg output : String) (m : Mission) :
    Outcome × Mission :=
  let (_, m) := m.enter arg output
  (.next entry, { m with skills := m.skills.push name m.calls.size })

/-- Leave the newest frame, which may be that of the newest skill: the caller's `fin` and `fout`
come back, the result is bound, and control returns. -/
def leave (v : Value) (m : Mission) : Outcome × Mission :=
  let skills := match m.skills.top? with
    | some frame => if frame.depth = m.calls.size then m.skills.pop else m.skills
    | none => m.skills
  match m.calls.popFrame with
  | (calls, none) => (.aborted (.stackUnderflow m.index), { m with skills, calls })
  | (calls, some frame) =>
    let t := (m.symbols.set Reserved.fin frame.fin).set Reserved.fout frame.fout
    let output := Text.trim frame.output
    let t := if output = "" then t else t.declare output v
    (.next frame.returnTo, { m.setSymbols t with skills, calls })

/-- Return the value of an expression, or `fout` if there is none. -/
def giveBack (source : String) (m : Mission) : Outcome × Mission :=
  if Text.isBlankText source then m.leave (m.symbols.value Reserved.fout)
  else
    match m.runStep (StepM.evaluate source) with
    | (.ok v, m) => m.leave v
    | (.error failure, m) => (.failed failure, m)

/-- Pass a mark. -/
def passStub (kind : StubKind) (m : Mission) : Outcome × Mission :=
  match kind with
  | .endFunction _ => m.leave (m.symbols.value Reserved.fout)
  | .endSkill _ =>
    if m.skills.isEmpty then (.next Program.sentinel, m)
    else m.leave (m.symbols.value Reserved.fout)
  | _ => (.next (m.index + 1), m)

/-! ## Exception handlers -/

/-- Enter the block of a handler after trying to reach the site. Outside recovery the block is
passed over. -/
def handleException (args : HandlerArgs) (stop : Nat) (m : Mission) : Outcome × Mission :=
  if !m.handling then (.next stop, m)
  else
    let policy := m.recovery.config.policyFor (some args)
    match m.world.retry policy with
    | (.reconnected _, w) =>
      match (m.setWorld w).refreshPage with
      | .ok m =>
        (.next (m.index + 1), m.setSymbols (m.symbols.setFlag Reserved.netConnected true))
      | .error fault => (.failed (.platform fault), m.setWorld w)
    | (.exhausted attempts, w) =>
      (.next (m.index + 1), (m.setWorld w).markFailed (unreachable policy.site attempts))

/-- End the block of a handler: the mission ends if it has failed, else it goes back to the newest
rollback point. -/
def endException (m : Mission) : Outcome × Mission :=
  if !m.handling then (.next (m.index + 1), m)
  else if m.symbols.flag Reserved.missionFailed then (.next Program.sentinel, m.unwind)
  else
    let (index, after) := m.rollBack
    (.next (index.getD (m.index + 1)), after)

/-- Do an action. -/
def doAction (kind : String) (args : Entries Value) (m : Mission) : Outcome × Mission :=
  match action? m.world.external kind args with
  | none => (.aborted (.unknownStepType kind (toString m.index)), m)
  | some act => m.follow do act; return m.index + 1

/-! ## One step -/

/-- Do what an instruction says. -/
def perform (op : Op) (m : Mission) : Outcome × Mission :=
  match op with
  | .checkCondition condition ifElse _ => m.checkCondition condition ifElse
  | .loop guard count counter stop => m.enterLoop guard count counter stop
  | .goto target increment => m.jump target increment
  | .stub kind => m.passStub kind
  | .callFunction _ entry param arg output => m.callFunction entry param arg output
  | .giveBack source => m.giveBack source
  | .useSkill name entry arg output => m.useSkill name entry arg output
  | .overloadSkill name entry arg output => m.useSkill name entry arg output
  | .exceptionHandler args stop => m.handleException args stop
  | .endException => m.endException
  | .finish => (.next Program.sentinel, m)
  | .action kind args => m.doAction kind args

/-- Where control goes when an instruction fails. -/
def fallback (index : Nat) : Op → Nat
  | .checkCondition _ ifElse _ => ifElse
  | .loop _ _ _ stop => stop
  | _ => index + 1

/-- How a step came out. -/
inductive StepStatus where
  | completed
  | failed (tag : String)
  deriving DecidableEq

/-- Run the instruction that comes next. Behind the end of the program there is none. -/
def tick (m : Mission) : Except SkillFault StepStatus × Mission :=
  match m.program.instructions[m.index]? with
  | none => (.ok .completed, { m with index := Program.sentinel })
  | some i =>
    match m.perform i.op with
    | (.aborted fault, m) => (.error fault, m)
    | (.next index, m) => (.ok .completed, { m with index, stepsExecuted := m.stepsExecuted + 1 })
    | (.failed failure, after) =>
      let tag := failureTag i.op.kind m.index failure.message
      (.ok (.failed tag), { after with
        index := fallback m.index i.op
        stepsExecuted := m.stepsExecuted + 1
        lastError := some tag })

end Mission

end Deskhand
