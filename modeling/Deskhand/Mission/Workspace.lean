import Deskhand.Mission.Config
import Deskhand.Mission.Failure
import Deskhand.Recovery.Layer
import Deskhand.World.Basic

/-!
# What steps work on

An action step may change the variables, the recovery layer and the world, and nothing else. What it
changed before it failed stays changed.
-/

namespace Deskhand

/-- What an action step may change. -/
structure Workspace where
  symbols : SymbolTable
  recovery : Recovery
  world : World

/-- What an action step is told: the settings of the run and its own index. -/
structure StepContext where
  config : RunConfig
  index : Nat

/-- A part of an action step. -/
abbrev StepM := ReaderT StepContext (ExceptT Failure (StateM Workspace))

namespace StepM

/-- Run a part of a step: what comes of it, and the workspace afterwards. -/
def result {α : Type} (step : StepM α) (context : StepContext) (w : Workspace) :
    Except Failure α × Workspace :=
  (step context).run w

/-- Work with the variables. -/
def withSymbols {α : Type} (f : SymbolTable → SymbolTable × Except ExprError α) : StepM α := do
  let w ← get
  let (symbols, result) := f w.symbols
  set { w with symbols }
  match result with
  | .ok v => return v
  | .error e => throw (.expression e)

/-- Change the variables. -/
def modifySymbols (f : SymbolTable → SymbolTable) : StepM Unit :=
  modify fun w => { w with symbols := f w.symbols }

/-- The value of a name; null if it has none. -/
def valueOfName (name : String) : StepM Value := return (← get).symbols.value name

/-- The value of an expression. -/
def evaluate (source : String) : StepM Value := withSymbols (·.evaluate source)

/-- Whether a condition holds. -/
def holds (condition : String) : StepM Bool := withSymbols (·.evaluateCondition condition)

/-- Run statements. -/
def execute (source : String) : StepM Value := withSymbols (·.execute source)

/-- Write to a target. -/
def write (target : String) (v : Value) : StepM Unit := withSymbols (·.write target v)

/-- Write to a target, if one is given. -/
def store (target : String) (v : Value) : StepM Unit :=
  if Text.isBlankText target then return () else write (Text.trim target) v

/-- Let something happen in the world. -/
def withWorld {α : Type} (f : World → α × World) : StepM α := do
  let w ← get
  let (result, world) := f w.world
  set { w with world }
  return result

/-- Do an action on the desktop. -/
def act (action : DesktopAction) : StepM Unit := do
  let w ← get
  match w.world.act action with
  | .ok world => set { w with world }
  | .error fault => throw (.platform fault)

/-- The rectangle of the window on top. -/
def topWindow : StepM WindowRect := do
  match (← get).world.desktop.topWindow with
  | .ok rect => return rect
  | .error fault => throw (.platform fault)

/-- Wait. -/
def pause (d : Duration) : StepM Unit := withWorld fun w => ((), w.sleep d)

/-- Ask for something from the files. -/
def fromFiles {α : Type} (f : Files → Except FileFault α) : StepM α := do
  match f (← get).world.files with
  | .ok v => return v
  | .error fault => throw (.file fault)

/-- Change the files. -/
def changeFiles (f : Files → Except FileFault Files) : StepM Unit := do
  let w ← get
  match f w.world.files with
  | .ok files => set { w with world := { w.world with files } }
  | .error fault => throw (.file fault)

/-- The arithmetic of a step that is not checked: the machine cuts an exact result to a word. -/
def machine (n : Int) : StepM Int := return (Expr.wrapped n).run

/-- Put down a rollback point behind the step. -/
def record : StepM Unit := do
  let index := (← read).index
  modify fun w => { w with recovery := w.recovery.record (index + 1) w.symbols }

/-- Read the arguments of a step. -/
def arguments (fields : List Field) (args : Entries Value) : StepM (Entries Value) := do
  match Shape.readEntries ⟨"", fields⟩ args with
  | .ok r => return r
  | .error fault => throw (.arguments fault)

end StepM

/-! ## Arguments that may be expressions -/

namespace Value

/-- Nothing is given: null, or a text of blanks. -/
def isBlank : Value → Bool
  | .null => true
  | .text s => Text.isBlankText s
  | _ => false

/-- The texts that a value lists: the items of a list, the parts of a text between commas, or the
value alone. -/
def textList : Value → List String
  | .null => []
  | .list items => items.map display
  | .text s => ((Text.split "," s).map Text.trim).filter (· ≠ "")
  | v => [v.display]

end Value

namespace StepM

/-- A text is an expression; any other value is itself. -/
def valueOf : Value → StepM Value
  | .text s => evaluate s
  | v => return v

/-- A number, the text of a number or an expression for a number. -/
def numberOf (v : Value) : StepM (Option Binary64) := do
  if v.isBlank then return none
  match v.real?, v.text?.bind fun s => readReal? (Text.trim s) with
  | some x, _ => return some x
  | none, some x => return some x
  | none, none =>
    match ← valueOf v with
    | .null => return none
    | .bool b => return some (.ofInt (if b then 1 else 0))
    | v =>
      match v.real? with
      | some x => return some x
      | none => throw (.notNumber v)

/-- A number with a default. -/
def numberOr (default : Binary64) (v : Value) : StepM Binary64 := do
  return (← numberOf v).getD default

/-- The duration of a number of seconds. -/
def durationOf (seconds : Binary64) : StepM Duration :=
  match Duration.ofReal? seconds with
  | some d => return d
  | none => throw (.tooLong seconds)

/-- A number of seconds as a duration, none at all if nothing is given. -/
def secondsOf (v : Value) : StepM Duration := do durationOf (← numberOr .zero v)

/-- A number between two others, or the first if the second is not larger. -/
def randomBetween (lo hi : Binary64) : StepM Binary64 := do
  if !lo.lt hi then return lo
  if (hi - lo).toFinite?.isNone then throw (.infiniteRange lo hi)
  withWorld (·.drawReal lo hi)

end StepM

end Deskhand
