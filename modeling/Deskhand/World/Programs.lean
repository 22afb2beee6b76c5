import Deskhand.Number.Numeral
import Deskhand.Text.Blank
import Deskhand.World.Files

/-!
# Programs of the system

The programs that a step may start: one that prints its arguments, two that only succeed or fail,
and a shell for scripts of simple commands. Whatever else is asked for is not there.
-/

namespace Deskhand

/-- What a program leaves behind. -/
structure ProgramOutput where
  status : Nat
  out : String
  err : String
  deriving DecidableEq

namespace Shell

/-- A word or a mark between commands. -/
inductive Piece where
  | word (s : String)
  /-- What the command prints goes to the error output. -/
  | toError
  | stop

/-- Where in a line the reader is: between words, or in a word, perhaps inside quotes. -/
inductive Mode where
  | between
  | plain
  | single
  | double
  deriving DecidableEq

/-- What a parameter stands for. -/
def parameter (script : String) (args : List String) (c : Char) : Option String :=
  if c = '#' then some (toString args.length)
  else if c = '@' ∨ c = '*' then some (" ".intercalate args)
  else if c = '0' then some script
  else if c.isDigit then some ((args[digitValue c - 1]?).getD "")
  else none

/-- The pieces of a line; `word` is what was read of the current word, in reverse. -/
def pieces (script : String) (args : List String) :
    Mode → List Char → List Char → List Piece
  | mode, word, [] => if mode = .between then [] else [.word (String.ofList word.reverse)]
  | .single, word, c :: rest =>
    if c = '\'' then pieces script args .plain word rest
    else pieces script args .single (c :: word) rest
  | mode, word, '$' :: c :: rest =>
    match parameter script args c with
    | some value =>
      pieces script args (if mode = .between then .plain else mode)
        (value.toList.reverse ++ word) rest
    | none =>
      pieces script args (if mode = .between then .plain else mode) ('$' :: word) (c :: rest)
  | .double, word, '\\' :: c :: rest =>
    if c = '"' ∨ c = '\\' ∨ c = '$' then pieces script args .double (c :: word) rest
    else pieces script args .double (c :: '\\' :: word) rest
  | .double, word, c :: rest =>
    if c = '"' then pieces script args .plain word rest
    else pieces script args .double (c :: word) rest
  | .between, _, '>' :: '&' :: '2' :: rest => .toError :: pieces script args .between [] rest
  | .between, _, '1' :: '>' :: '&' :: '2' :: rest => .toError :: pieces script args .between [] rest
  | mode, word, c :: rest =>
    let flush (more : List Piece) : List Piece :=
      if mode = .between then more else .word (String.ofList word.reverse) :: more
    if c = '\'' then pieces script args .single word rest
    else if c = '"' then pieces script args .double word rest
    else if Text.isBlank c then flush (pieces script args .between [] rest)
    else if c = ';' then flush (.stop :: pieces script args .between [] rest)
    else if c = '#' ∧ mode = .between then []
    else pieces script args .plain (c :: word) rest

/-- A simple command. -/
structure SimpleCommand where
  words : List String
  toError : Bool

/-- The commands of a line. -/
def commands : SimpleCommand → List Piece → List SimpleCommand
  | c, [] => if c.words.isEmpty then [] else [c]
  | c, .word s :: rest => commands { c with words := c.words ++ [s] } rest
  | c, .toError :: rest => commands { c with toError := true } rest
  | c, .stop :: rest =>
    if c.words.isEmpty then commands ⟨[], false⟩ rest else c :: commands ⟨[], false⟩ rest

/-- The character that the shell prints for a backslash and a letter. -/
def escape? : Char → Option Char
  | 'a' => some '\x07'
  | 'b' => some '\x08'
  | 'f' => some '\x0c'
  | 'n' => some '\n'
  | 'r' => some '\r'
  | 't' => some '\t'
  | 'v' => some '\x0b'
  | '\\' => some '\\'
  | _ => none

/-- The text in which the shell prints an argument: backslashes introduce escapes. -/
def unescape : List Char → List Char
  | '\\' :: c :: rest =>
    match escape? c with
    | some printed => printed :: unescape rest
    | none => '\\' :: c :: unescape rest
  | c :: rest => c :: unescape rest
  | [] => []

/-- What the shell prints for the arguments of `echo`. A first argument `-n` keeps the line open. -/
def echoed : List String → String
  | "-n" :: args => String.ofList (unescape (" ".intercalate args).toList)
  | args => String.ofList (unescape (" ".intercalate args).toList) ++ "\n"

/-- Run commands one after another until one of them ends the script. -/
def run (script : String) (line : Nat) (before : ProgramOutput) :
    List SimpleCommand → ProgramOutput × Bool
  | [] => (before, false)
  | c :: rest =>
    match c.words with
    | [] => run script line before rest
    | name :: args =>
      if name = "exit" then
        ({ before with status := (args.head?.bind readNat64?).getD before.status % 256 }, true)
      else if name = "echo" then
        let text := echoed args
        let after :=
          if c.toError then { before with status := 0, err := before.err ++ text }
          else { before with status := 0, out := before.out ++ text }
        run script line after rest
      else if name = "true" ∨ name = ":" then run script line { before with status := 0 } rest
      else if name = "false" then run script line { before with status := 1 } rest
      else
        run script line
          { before with
            status := 127
            err := before.err ++ s!"{script}: {line}: {name}: not found\n" }
          rest

/-- Run the lines of a script, from the line of the given number. -/
def runLines (script : String) (args : List String) (line : Nat) (before : ProgramOutput) :
    List String → ProgramOutput
  | [] => before
  | text :: rest =>
    match run script line before
        (commands ⟨[], false⟩ (pieces script args .between [] text.toList)) with
    | (after, true) => after
    | (after, false) => runLines script args (line + 1) after rest

/-- Run the text of a script. -/
def runText (script : String) (args : List String) (text : String) : ProgramOutput :=
  runLines script args 1 ⟨0, "", ""⟩ (Text.split "\n" text)

/-- Start the shell: with a script in a file, or with the text of one behind `-c`. -/
def start (files : Files) : List String → ProgramOutput
  | [] => ⟨0, "", ""⟩
  | ["-c"] => ⟨2, "", "sh: 0: -c requires an argument\n"⟩
  | "-c" :: text :: [] => runText "sh" [] text
  | "-c" :: text :: name :: args => runText name args text
  | script :: args =>
    match files.read script with
    | .ok text => runText script args text
    | .error _ => ⟨2, "", s!"sh: 0: cannot open {script}: No such file\n"⟩

end Shell

/-- Start a program in the working directory. -/
def runProgram (program : String) (args : List String) (files : Files) :
    Except FileFault ProgramOutput :=
  match program with
  | "echo" => .ok ⟨0, " ".intercalate args ++ "\n", ""⟩
  | "true" => .ok ⟨0, "", ""⟩
  | "false" => .ok ⟨1, "", ""⟩
  | "sh" => .ok (Shell.start files args)
  | _ => .error .notFound

end Deskhand
