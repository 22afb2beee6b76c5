import Deskhand.CommandLine.Command

/-!
# Help

The texts that explain the commands and their options, in columns.
-/

namespace Deskhand.CommandLine

/-- Lines of two columns; the second one begins two blanks behind the longest entry of the first. -/
def columns (rows : List (String × String)) : List String :=
  let width := (rows.map fun row => row.1.length).foldl max 0
  rows.map fun row =>
    "  " ++ row.1 ++ String.ofList (List.replicate (width - row.1.length) ' ') ++ "  " ++ row.2

/-- How an option is written. -/
def OptionSpec.spelling (o : OptionSpec) : String :=
  let short := match o.short with
    | some letter => s!"-{letter}, "
    | none => "    "
  let operand := match o.operand with
    | some (_, name) => s!" <{name}>"
    | none => ""
  short ++ "--" ++ o.name ++ operand

/-- What an option is for, and the variable that also gives it. -/
def OptionSpec.explanation (environment : Entries String) (o : OptionSpec) : String :=
  match o.envName with
  | some name =>
    let value := (environment.get? name).getD ""
    o.about ++ s!" [env: {name}={value}]"
  | none => o.about

/-- The option that asks for help. -/
def helpRow : String × String := ("-h, --help", "Print help")

/-- Help on a command. -/
def CommandName.help (environment : Entries String) (c : CommandName) : List String :=
  [c.about, "", "Usage: skillbot " ++ c.name ++ " [OPTIONS] <SKILL>", "", "Arguments:"] ++
    columns [("<SKILL>", c.skillAbout)] ++ ["", "Options:"] ++
    columns (c.options.map (fun o => (o.spelling, o.explanation environment)) ++ [helpRow])

/-- Help on all commands. -/
def overview : List String :=
  ["Skill interpreter for scripted desktop and web automation", "",
    "Usage: skillbot <COMMAND>", "", "Commands:"] ++
    columns (CommandName.all.map (fun c => (c.name, c.about)) ++
      [("help", "Print this message or the help of the given subcommand(s)")]) ++
    ["", "Options:"] ++ columns [helpRow]

end Deskhand.CommandLine
