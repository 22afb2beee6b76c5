import Deskhand.Entries
import Deskhand.Number.Numeral
import Deskhand.Text.Search

/-!
# Options

How the words of a command line are told apart: options with and without values, long and short, and
the one word that is no option. An option may also be given by the environment; what the command
line says wins. Asking for help ends the reading.
-/

namespace Deskhand.CommandLine

/-- What the value of an option must be. -/
inductive Operand where
  | text
  /-- Not empty. -/
  | path
  /-- A number of 64 bits without sign. -/
  | number
  deriving DecidableEq

/-- An option of a command. -/
structure OptionSpec where
  /-- The long name, without its dashes. -/
  name : String
  short : Option Char
  /-- The value that follows and what help calls it; none for a switch. -/
  operand : Option (Operand × String)
  /-- Whether the option may be given more than once. -/
  repeats : Bool
  /-- The variable of the environment that also gives the option. -/
  envName : Option String
  about : String

/-- Why a command line cannot be understood. -/
inductive UsageFault where
  | unknownCommand (word : String)
  | unexpected (word : String)
  | missingValue (option : String)
  | unwantedValue (option : String)
  | badValue (value option : String)
  | givenTwice (option : String)
  | missingSkill
  deriving DecidableEq

def UsageFault.message : UsageFault → String
  | unknownCommand word => s!"unrecognized subcommand '{word}'"
  | unexpected word => s!"unexpected argument '{word}' found"
  | missingValue option => s!"a value is required for '{option}' but none was supplied"
  | unwantedValue option => s!"unexpected value for '{option}' found; no more were expected"
  | badValue value option => s!"invalid value '{value}' for '{option}'"
  | givenTwice option => s!"the argument '{option}' cannot be used multiple times"
  | missingSkill => "the following required arguments were not provided: <SKILL>"

/-- What a command line says behind its command: the skill, and the options with their values, in
order. -/
structure Words where
  skill : Option String
  given : List (String × String)

namespace Words

def none : Words := ⟨.none, []⟩

/-- Whether an option was given. -/
def has (name : String) (w : Words) : Bool := w.given.any (·.1 = name)

/-- The value of an option that is given at most once. -/
def value? (name : String) (w : Words) : Option String := Entries.get? name w.given

/-- The number of an option. -/
def number? (name : String) (w : Words) : Option Nat := (w.value? name).bind readNat64?

/-- The values of an option, in order. -/
def values (name : String) (w : Words) : List String :=
  w.given.filterMap fun e => if e.1 = name then some e.2 else .none

/-- Take a word that is no option; there is place for one. -/
def addSkill (word : String) (w : Words) : Except UsageFault Words :=
  if w.skill.isSome then .error (.unexpected word)
  else if word = "" then .error (.badValue word "<SKILL>")
  else .ok { w with skill := some word }

/-- Take an option. -/
def add (o : OptionSpec) (value : String) (w : Words) : Except UsageFault Words :=
  let fits := match o.operand with
    | some (.path, _) => value ≠ ""
    | some (.number, _) => (readNat64? value).isSome
    | _ => true
  if !o.repeats && w.has o.name then .error (.givenTwice o.name)
  else if !fits then .error (.badValue value o.name)
  else .ok { w with given := w.given ++ [(o.name, value)] }

end Words

/-- What a word of a command line is. -/
inductive Word where
  | help
  /-- All words behind this one are no options. -/
  | endOfOptions
  | plain
  | switch (o : OptionSpec)
  | valued (o : OptionSpec) (value : String)
  /-- The value is the next word. -/
  | awaiting (o : OptionSpec)

/-- Whether a word looks like an option. A dash alone does not. -/
def looksLikeOption (word : String) : Bool := Text.startsWith word "-" && word ≠ "-"

/-- A word cut at its first equals sign. -/
def splitAssignment (word : String) : String × Option String :=
  let (name, rest) := word.toList.span (· ≠ '=')
  match rest with
  | [] => (word, none)
  | _ :: value => (String.ofList name, some (String.ofList value))

/-- A word that begins with two dashes. -/
def classifyLong (options : List OptionSpec) (word : String) : Except UsageFault Word :=
  let (name, value) := splitAssignment (String.ofList (word.toList.drop 2))
  if name = "help" then
    if value.isSome then .error (.unwantedValue word) else .ok .help
  else
    match options.find? (·.name = name), value with
    | none, _ => .error (.unexpected word)
    | some o, none => .ok (if o.operand.isSome then .awaiting o else .switch o)
    | some o, some value =>
      if o.operand.isSome then .ok (.valued o value) else .error (.unwantedValue word)

/-- A word that begins with one dash: the letter of an option, perhaps with its value. -/
def classifyShort (options : List OptionSpec) (word : String) : Except UsageFault Word :=
  match word.toList.drop 1 with
  | [] => .ok .plain
  | letter :: rest =>
    if letter = 'h' then .ok .help
    else
      match options.find? (·.short = some letter), rest with
      | none, _ => .error (.unexpected word)
      | some o, [] => .ok (.awaiting o)
      | some o, '=' :: value => .ok (.valued o (String.ofList value))
      | some o, value => .ok (.valued o (String.ofList value))

def classify (options : List OptionSpec) (word : String) : Except UsageFault Word :=
  if word = "--" then .ok .endOfOptions
  else if Text.startsWith word "--" then classifyLong options word
  else if Text.startsWith word "-" then classifyShort options word
  else .ok .plain

/-- Read the words behind a command; nothing if they ask for help. -/
def readWords (options : List OptionSpec) (w : Words) :
    List String → Except UsageFault (Option Words)
  | [] => .ok w
  | word :: rest =>
    match classify options word with
    | .error e => .error e
    | .ok .help => .ok none
    | .ok .endOfOptions => (rest.foldlM (fun (w : Words) word => w.addSkill word) w).map some
    | .ok .plain =>
      match w.addSkill word with
      | .ok w => readWords options w rest
      | .error e => .error e
    | .ok (.switch o) =>
      match w.add o "" with
      | .ok w => readWords options w rest
      | .error e => .error e
    | .ok (.valued o value) =>
      match w.add o value with
      | .ok w => readWords options w rest
      | .error e => .error e
    | .ok (.awaiting o) =>
      match rest with
      | [] => .error (.missingValue o.name)
      | value :: rest =>
        if looksLikeOption value then .error (.missingValue o.name)
        else
          match w.add o value with
          | .ok w => readWords options w rest
          | .error e => .error e

/-- Take the options that the environment gives and the command line does not. -/
def addVariables (environment : Entries String) (w : Words) :
    List OptionSpec → Except UsageFault Words
  | [] => .ok w
  | o :: rest =>
    match o.envName.bind environment.get? with
    | some value =>
      if w.has o.name then addVariables environment w rest
      else do addVariables environment (← w.add o value) rest
    | none => addVariables environment w rest

end Deskhand.CommandLine
