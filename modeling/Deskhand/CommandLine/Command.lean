import Deskhand.CommandLine.Options

/-!
# Commands

What the command line can ask for: to check a skill, to run it, or to list its program. Every
command takes one skill and may be told where the skills are that it uses.
-/

namespace Deskhand.CommandLine

/-- A skill, and the directory of the skills that it uses. -/
structure SkillSource where
  skill : String
  library : Option String
  deriving DecidableEq

/-- How a skill is to be run. -/
structure RunRequest where
  source : SkillSource
  config : Option String
  seed : Option Nat
  maxSteps : Option Nat
  /-- Variables to be declared, each as a name, an equals sign and a value. -/
  assignments : List String
  allowUnknown : Bool
  asJson : Bool
  dumpSymbols : Bool
  deriving DecidableEq

/-- The names of the commands. -/
inductive CommandName where
  | check
  | run
  | list
  deriving DecidableEq

/-- What is asked for. -/
inductive Request where
  | check (source : SkillSource)
  | run (request : RunRequest)
  | list (source : SkillSource)
  /-- Help on a command, or on all of them. -/
  | help (topic : Option CommandName)
  deriving DecidableEq

namespace CommandName

def name : CommandName → String
  | check => "check"
  | run => "run"
  | list => "list"

def about : CommandName → String
  | check => "Load and resolve a skill without running it"
  | run => "Run a skill against headless collaborators"
  | list => "Print the resolved program of a skill"

def skillAbout : CommandName → String
  | run => "Skill document to run (.psk or .json)"
  | _ => "Skill document to resolve (.psk or .json)"

def all : List CommandName := [check, run, list]

def ofName? (name : String) : Option CommandName := all.find? (·.name = name)

def libraryOption : OptionSpec :=
  ⟨"library", some 'l', some (.path, "LIBRARY"), false, some "SKILLBOT_LIBRARY",
    "Directory holding the skills it uses"⟩

def configOption : OptionSpec :=
  ⟨"config", some 'c', some (.path, "CONFIG"), false, some "SKILLBOT_CONFIG",
    "Run configuration (YAML or JSON)"⟩

def seedOption : OptionSpec :=
  ⟨"seed", none, some (.number, "SEED"), false, none, "Seed for back-off and jitter"⟩

def maxStepsOption : OptionSpec :=
  ⟨"max-steps", none, some (.number, "MAX_STEPS"), false, none, "Abort after this many steps"⟩

def setOption : OptionSpec :=
  ⟨"set", none, some (.text, "NAME=VALUE"), true, none,
    "Pre-declare a variable, as name=<json> (plain text if not JSON)"⟩

/-- An option without a value. -/
def switch (name about : String) : OptionSpec := ⟨name, none, none, false, none, about⟩

def allowUnknownOption : OptionSpec := switch "allow-unknown"
  "Treat unknown step types as dry-run no-ops instead of rejecting the skill"

def jsonOption : OptionSpec := switch "json" "Print the report as JSON instead of a summary"

def dumpSymbolsOption : OptionSpec := switch "dump-symbols" "Print the final symbol table"

/-- The options of a command. -/
def options : CommandName → List OptionSpec
  | run => [libraryOption, configOption, seedOption, maxStepsOption, setOption, allowUnknownOption,
      jsonOption, dumpSymbolsOption]
  | _ => [libraryOption]

/-- The request that the words behind a command make. -/
def request (command : CommandName) (skill : String) (w : Words) : Request :=
  let source : SkillSource := ⟨skill, w.value? libraryOption.name⟩
  match command with
  | check => .check source
  | list => .list source
  | run => .run {
      source := source
      config := w.value? configOption.name
      seed := w.number? seedOption.name
      maxSteps := w.number? maxStepsOption.name
      assignments := w.values setOption.name
      allowUnknown := w.has allowUnknownOption.name
      asJson := w.has jsonOption.name
      dumpSymbols := w.has dumpSymbolsOption.name }

/-- Read the words behind a command. -/
def read (command : CommandName) (environment : Entries String) (words : List String) :
    Except UsageFault Request := do
  match ← readWords command.options .none words with
  | none => .ok (.help command)
  | some w =>
    let w ← addVariables environment w command.options
    match w.skill with
    | some skill => .ok (command.request skill w)
    | none => .error .missingSkill

end CommandName

/-- The words that ask for help on all commands. -/
def helpWords : List String := ["-h", "--help"]

/-- Read a command line. -/
def Request.read (environment : Entries String) : List String → Except (Option UsageFault) Request
  | [] => .error none
  | "help" :: topic :: _ =>
    match CommandName.ofName? topic with
    | some command => .ok (.help command)
    | none => .error (some (.unknownCommand topic))
  | word :: rest =>
    if word = "help" ∨ word ∈ helpWords then .ok (.help none)
    else
      match CommandName.ofName? word with
      | some command => (command.read environment rest).mapError some
      | none =>
        .error (some (if looksLikeOption word then .unexpected word else .unknownCommand word))

end Deskhand.CommandLine
