import Deskhand.CommandLine.Help
import Deskhand.CommandLine.Listing
import Deskhand.CommandLine.Report
import Deskhand.Mission.ConfigFile
import Deskhand.Program.Resolve

/-!
# Carrying out commands

What a command prints and how it ends, as a function of its words, the environment and the files. A
command that fails says what it was about and what the causes were.
-/

namespace Deskhand.CommandLine

/-- What a command prints, the code that it ends with, and the files afterwards. -/
structure Response where
  code : Nat
  out : List String
  err : List String
  files : Files

/-- Why a command failed: what it was about, and the causes, each one that of the one before it. -/
structure Complaint where
  about : String
  causes : List String
  deriving DecidableEq

namespace Complaint

/-- A cause with its first line behind a margin and the others as far in. -/
def indent (margin : String) (cause : String) : String :=
  margin ++ Text.replace "\n" ("\n" ++ String.ofList (List.replicate margin.length ' ')) cause

/-- The lines of a complaint. Several causes are numbered. -/
def lines (c : Complaint) : List String :=
  let causes := match c.causes with
    | [] => []
    | [cause] => ["", "Caused by:", indent "    " cause]
    | causes => "" :: "Caused by:" :: causes.mapIdx fun n cause => indent s!"    {n}: " cause
  ("Error: " ++ c.about) :: causes

end Complaint

/-- The causes that a structural fault gives. -/
def causes (fault : SkillFault) : List String :=
  match fault with
  | .file reason => [fault.message, reason.message]
  | _ => [fault.message]

/-- Say what something was about if it failed. -/
def concerning {α : Type} (about : String) (result : Except SkillFault α) : Except Complaint α :=
  result.mapError fun fault => ⟨about, causes fault⟩

/-! ## Loading -/

def loadSkill (path : String) (files : Files) : Except Complaint SkillDocument :=
  concerning s!"Failed to load skill {path}" (SkillDocument.load path files)

def loadLibrary (directory : Option String) (files : Files) : Except Complaint SkillLibrary :=
  match directory with
  | none => .ok .empty
  | some path =>
    concerning s!"Failed to load skill library from {path}" (SkillLibrary.load path files)

def resolveSkill (path : String) (main : SkillDocument) (library : SkillLibrary) :
    Except Complaint Program :=
  concerning s!"Failed to resolve {path}" (resolve main library)

/-- The program of a skill. -/
def loadProgram (source : SkillSource) (files : Files) : Except Complaint Program := do
  let main ← loadSkill source.skill files
  let library ← loadLibrary source.library files
  resolveSkill source.skill main library

/-- The step types of a program that are not built in, in ascending order. -/
def unknownStepTypes (p : Program) : List String :=
  let kinds := p.instructions.toList.filterMap fun i =>
    match i.op with
    | .action kind _ => if builtinStepTypes.contains kind then none else some kind
    | _ => none
  (kinds.mergeSort fun a b => a ≤ b).eraseDups

/-! ## Commands -/

/-- What is said about a program that was resolved. -/
def checkLines (p : Program) : List String :=
  let functions := p.functions.names
  let unknown := unknownStepTypes p
  [s!"OK '{p.name}' resolves to {p.size} instructions across {p.documents.length} document(s)"] ++
    (if functions.isEmpty then [] else ["   Functions: " ++ ", ".intercalate functions]) ++
    (if unknown.isEmpty then []
      else ["Note: step types without a built-in handler: " ++ ", ".intercalate unknown])

/-- The name and the value that a text assigns. The value is JSON, or else the text as it is. -/
def readAssignment (text : String) : Except Complaint (String × Value) :=
  match splitAssignment text with
  | (_, none) => .error ⟨s!"expected NAME=VALUE, got '{text}'", []⟩
  | (name, some value) =>
    let name := Text.trim name
    if name = "" then .error ⟨s!"empty variable name in '{text}'", []⟩
    else .ok (name, (Json.read (Text.trim value)).getD (.text value))

/-- The settings that a request asks for. -/
def runConfig (r : RunRequest) (files : Files) : Except Complaint RunConfig := do
  let config ← match r.config with
    | none => .ok RunConfig.usual
    | some path => concerning s!"Failed to load config {path}" (RunConfig.load path files)
  let config := match r.seed with
    | some seed => config.withSeed seed
    | none => config
  .ok (if r.maxSteps.isSome then { config with maxSteps := r.maxSteps } else config)

/-- The mission that a request asks for, before its first step. Without a seed the draws depend on
`entropy`. -/
def prepare (entropy : Nat) (r : RunRequest) (files : Files) : Except Complaint Mission := do
  let main ← loadSkill r.source.skill files
  let library ← loadLibrary r.source.library files
  let config ← runConfig r files
  let program ← resolveSkill r.source.skill main library
  let external : Entries ExternalOp :=
    if r.allowUnknown then (unknownStepTypes program).map fun kind => (kind, .dryRun) else []
  let world := { World.plain (config.seed.getD entropy) files with external }
  let m ← concerning "Skill uses step types with no handler (try --allow-unknown)"
    (Mission.create program world config)
  r.assignments.foldlM (fun m text => do
    let (name, value) ← readAssignment text
    .ok (m.setSymbols (m.symbols.declare name value))) m

/-- What is printed about a mission that is over. -/
def reportLines (r : RunRequest) (report : MissionReport) (m : Mission) : List String :=
  let millis := m.world.clock
  (if r.asJson then [(report.toValue millis).indented 0] else report.summary millis) ++
    (if r.dumpSymbols then [m.symbols.toValue.indented 0] else [])

/-- Run a mission for at most `fuel` turns; nothing if that is not enough. -/
def runMission (fuel : Nat) (r : RunRequest) (m : Mission) : Option Response :=
  (m.run fuel).map fun (result, m) =>
    match result with
    | .error fault => ⟨1, [], (⟨"Mission aborted", causes fault⟩ : Complaint).lines, m.world.files⟩
    | .ok report =>
      ⟨if report.status = .completed then 0 else 1, reportLines r report m, [], m.world.files⟩

/-- Print lines, unless there is something to complain about. -/
def respond (files : Files) : Except Complaint (List String) → Response
  | .ok out => ⟨0, out, [], files⟩
  | .error complaint => ⟨1, [], complaint.lines, files⟩

/-- Carry out a request. -/
def Request.execute (fuel entropy : Nat) (environment : Entries String) (files : Files) :
    Request → Option Response
  | .check source => some (respond files ((loadProgram source files).map checkLines))
  | .list source => some (respond files ((loadProgram source files).map Program.listing))
  | .help none => some ⟨0, overview, [], files⟩
  | .help (some command) => some ⟨0, command.help environment, [], files⟩
  | .run r =>
    match prepare entropy r files with
    | .error complaint => some ⟨1, [], complaint.lines, files⟩
    | .ok m => runMission fuel r m

/-- Carry out a command line. One that cannot be understood ends with code 2. -/
def execute (fuel entropy : Nat) (environment : Entries String) (files : Files)
    (words : List String) : Option Response :=
  match Request.read environment words with
  | .ok request => request.execute fuel entropy environment files
  | .error none => some ⟨2, [], overview, files⟩
  | .error (some fault) =>
    some ⟨2, [], ["error: " ++ fault.message, "", "For more information, try '--help'."], files⟩

end Deskhand.CommandLine
