import Deskhand.Recovery.Config

/-!
# Mission settings

Everything about a run that a document does not say. Every setting has a default.
-/

namespace Deskhand

/-- The settings of a run. -/
structure RunConfig where
  recovery : RecoveryConfig
  /-- What random draws depend on. -/
  seed : Option Nat
  /-- How many steps may be executed. -/
  maxSteps : Option Nat
  scrollResolution : Int
  /-- The program that runs the files of external calls. -/
  externProgram : String
  /-- Where screenshots and pages are saved, if it is set. -/
  workDir : Option String
  deriving DecidableEq

namespace RunConfig

/-- Where screenshots and pages are saved if nothing else is said. -/
def usualWorkDir : String := "/tmp/skillbot"

def shape : Shape where
  name := "RunConfig"
  fields := [
    .defaulted "recovery" RecoveryConfig.shape.reader RecoveryConfig.usual.toValue,
    .defaulted "seed" (.orNull .nat64) .null, .defaulted "max_steps" (.orNull .nat64) .null,
    .defaulted "scroll_resolution" .int64 (.int 1),
    .defaulted "extern_program" .text (.text "python3"),
    .defaulted "work_dir" .path .null]

def ofEntries (r : Entries Value) : RunConfig where
  recovery := .ofEntries (((r.value "recovery").object?).getD [])
  seed := r.nat? "seed"
  maxSteps := r.nat? "max_steps"
  scrollResolution := r.int "scroll_resolution"
  externProgram := r.text "extern_program"
  workDir := r.text? "work_dir"

/-- The settings that a value denotes. -/
def ofValue (v : Value) : Except ShapeFault RunConfig := (shape.read v).map ofEntries

/-- The settings if nothing is said. -/
def usual : RunConfig where
  recovery := .usual
  seed := none
  maxSteps := none
  scrollResolution := 1
  externProgram := "python3"
  workDir := none

/-- The directory in which screenshots and pages are saved. -/
def workDirectory (c : RunConfig) : String := c.workDir.getD usualWorkDir

end RunConfig

end Deskhand
