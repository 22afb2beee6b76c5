import Deskhand.Expr.Source

/-!
# The symbol table

The one namespace of a mission. A few names are reserved and bound from the start. The *mission
variables* are the names that were declared; only they are captured by a snapshot and brought back
by a restore. An expression that reads a name without a binding first binds it to null, so reading
never fails for want of a name.
-/

namespace Deskhand

/-! ## Reserved names -/

namespace Reserved

/-- The argument of the function or skill that runs. -/
def fin : String := "fin"

/-- What a function or skill returns if it names nothing else. -/
def fout : String := "fout"

/-- The records of the last screen that was read. -/
def lastScreen : String := "last_screen"

/-- The outcome of the last condition. -/
def cmpResult : String := "cmp_result"

/-- Whether an exception is open. -/
def inException : String := "in_exception"

/-- Whether the last ping was answered. -/
def netConnected : String := "net_connected"

/-- Pixels that one unit of scrolling moves. -/
def scrollResolution : String := "scroll_resolution"

/-- Whether the mission has failed. -/
def missionFailed : String := "mission_failed"

end Reserved

/-- The values of the mission variables at one time. -/
structure Snapshot where
  values : Entries Value

/-- Names, their values, and which of them are mission variables, in the order of declaration. -/
structure SymbolTable where
  vars : Entries Value
  missionVars : List String

namespace SymbolTable

/-- The table that a mission starts with. -/
def initial : SymbolTable where
  vars := [(Reserved.fin, .null), (Reserved.fout, .null), (Reserved.lastScreen, .list []),
    (Reserved.cmpResult, .bool false), (Reserved.inException, .bool false),
    (Reserved.netConnected, .bool true), (Reserved.scrollResolution, .int 1),
    (Reserved.missionFailed, .bool false)]
  missionVars := []

/-- The value of a name, if it has one. -/
def get? (name : String) (t : SymbolTable) : Option Value := t.vars.get? name

/-- The value of a name; null if it has none. -/
def value (name : String) (t : SymbolTable) : Value := (t.get? name).getD .null

/-- Bind a name. -/
def set (name : String) (v : Value) (t : SymbolTable) : SymbolTable :=
  { t with vars := t.vars.put name v }

/-- Bind a name and make it a mission variable. -/
def declare (name : String) (v : Value) (t : SymbolTable) : SymbolTable where
  vars := t.vars.put name v
  missionVars := if name ∈ t.missionVars then t.missionVars else t.missionVars ++ [name]

/-- Whether the value of a name counts as true. -/
def flag (name : String) (t : SymbolTable) : Bool := (t.value name).isTruthy

/-- Bind a name to a truth value. -/
def setFlag (name : String) (on : Bool) (t : SymbolTable) : SymbolTable := t.set name (.bool on)

/-- The names without a binding, in order, each once. -/
def missing (t : SymbolTable) : List String → List String
  | [] => []
  | name :: rest =>
    if t.vars.has name then missing t rest
    else name :: (missing t rest).filter (· ≠ name)

/-- Bind every name without a binding to null. -/
def declareMissing (names : List String) (t : SymbolTable) : SymbolTable :=
  { t with vars := (t.missing names).foldl (fun vars name => vars.put name .null) t.vars }

/-- The value of the expression that a text denotes; names that it reads are bound first. -/
def evaluate (source : String) (t : SymbolTable) : SymbolTable × Except ExprError Value :=
  match Expr.parse source with
  | .error e => (t, .error e)
  | .ok e =>
    let t := t.declareMissing (Expr.freeNames e)
    (t, Expr.eval t.get? e)

/-- Whether a condition holds; the outcome is also bound, unless the evaluation fails. -/
def evaluateCondition (source : String) (t : SymbolTable) : SymbolTable × Except ExprError Bool :=
  match t.evaluate source with
  | (t, .error e) => (t, .error e)
  | (t, .ok v) => (t.setFlag Reserved.cmpResult v.isTruthy, .ok v.isTruthy)

/-- Run the statements that a text denotes; names that they read are bound first. -/
def execute (source : String) (t : SymbolTable) : SymbolTable × Except ExprError Value :=
  match Expr.parseStatements source with
  | .error e => (t, .error e)
  | .ok statements =>
    let t := t.declareMissing (Expr.freeNamesOfAll statements)
    let (vars, result) := Expr.run statements t.vars
    ({ t with vars }, result)

/-- Write to the target that a text denotes. -/
def write (target : String) (v : Value) (t : SymbolTable) : SymbolTable × Except ExprError Unit :=
  match Expr.readTarget target with
  | .error e => (t, .error e)
  | .ok target =>
    match Expr.assign target .set v t.vars with
    | (vars, none) => ({ t with vars }, .ok ())
    | (vars, some e) => ({ t with vars }, .error e)

/-- The values of the mission variables. -/
def snapshot (t : SymbolTable) : Snapshot := ⟨t.missionVars.map fun name => (name, t.value name)⟩

/-- Forget the mission variables that a snapshot does not have. -/
def dropLater (s : Snapshot) (t : SymbolTable) : SymbolTable :=
  let later := t.missionVars.filter fun name => !s.values.has name
  { vars := t.vars.filter fun e => e.1 ∉ later
    missionVars := t.missionVars.filter fun name => name ∉ later }

/-- Bring the mission variables back to what they were when a snapshot was taken. -/
def restore (s : Snapshot) (t : SymbolTable) : SymbolTable :=
  s.values.foldl (fun t e => t.declare e.1 e.2) (t.dropLater s)

/-- All bindings as an object, sorted by name. -/
def toValue (t : SymbolTable) : Value := .object t.vars.sorted

end SymbolTable

end Deskhand
