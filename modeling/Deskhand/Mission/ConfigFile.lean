import Deskhand.Json.Reader
import Deskhand.Mission.Config
import Deskhand.Skill.Fault
import Deskhand.Yaml.Reader

/-!
# Settings in files

A file with settings is YAML if its extension says so, else JSON. A setting may be given only once.
Nothing is said about what is wrong with a file that cannot be understood.
-/

namespace Deskhand

namespace RecoveryConfig

/-- What the settings are in YAML. -/
def yamlForm : Yaml.Form :=
  .record [("max_retries", .integer), ("min_retry_back_off_secs", .integer),
    ("max_retry_back_off_secs", .integer), ("reference_site", .text),
    ("fault_names", .listOf .text), ("page_stack_capacity", .integer)]

end RecoveryConfig

namespace RunConfig

/-- What the settings are in YAML. -/
def yamlForm : Yaml.Form :=
  .record [("recovery", RecoveryConfig.yamlForm), ("seed", .integer), ("max_steps", .integer),
    ("scroll_resolution", .integer), ("extern_program", .text), ("work_dir", .text)]

/-- The extensions of YAML files. -/
def yamlExtensions : List String := ["yaml", "yml"]

/-- Whether the entries of an object name a field of a shape more than once. -/
def repeatsField (shape : Shape) : Value → Bool
  | .object entries =>
    let known := (Entries.names entries).filter fun name => shape.fields.any (·.name = name)
    known.eraseDups.length < known.length
  | _ => false

/-- The settings that are written as a value, if they make sense. -/
def ofWritten? (v : Value) : Option RunConfig :=
  if repeatsField shape v ∨ (v.field? "recovery").any (repeatsField RecoveryConfig.shape) then none
  else (ofValue v).toOption

/-- What is written in the text of a file. -/
def readWritten (path text : String) : Option Value :=
  if (Path.extension? path).any (yamlExtensions.contains ·) then
    (Yaml.read text).map (Yaml.Node.toValue yamlForm)
  else Json.readWritten text

/-- The settings in a file. -/
def load (path : String) (files : Files) : Except SkillFault RunConfig :=
  match files.read path with
  | .error e => .error (.file e)
  | .ok text =>
    match (readWritten path text).bind ofWritten? with
    | some config => .ok config
    | none => .error (.invalidConfig path)

/-- The settings with another seed. -/
def withSeed (seed : Nat) (c : RunConfig) : RunConfig := { c with seed := some seed }

end RunConfig

end Deskhand
