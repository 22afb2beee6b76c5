import Deskhand.CallStack
import Deskhand.CommandLine.Command
import Deskhand.CommandLine.Execute
import Deskhand.CommandLine.Help
import Deskhand.CommandLine.Listing
import Deskhand.CommandLine.Options
import Deskhand.CommandLine.Report
import Deskhand.Entries
import Deskhand.Expr.Arithmetic
import Deskhand.Expr.Assign
import Deskhand.Expr.Container
import Deskhand.Expr.Error
import Deskhand.Expr.Eval
import Deskhand.Expr.Function
import Deskhand.Expr.Lexer
import Deskhand.Expr.Method
import Deskhand.Expr.Names
import Deskhand.Expr.Parser
import Deskhand.Expr.Source
import Deskhand.Expr.Token
import Deskhand.Expr.Tree
import Deskhand.Json.Number
import Deskhand.Json.Printer
import Deskhand.Json.Reader
import Deskhand.Main
import Deskhand.Mission.Basic
import Deskhand.Mission.Config
import Deskhand.Mission.ConfigFile
import Deskhand.Mission.Control
import Deskhand.Mission.Failure
import Deskhand.Mission.Run
import Deskhand.Mission.Workspace
import Deskhand.Number.Binary64
import Deskhand.Number.Decimal
import Deskhand.Number.Notation
import Deskhand.Number.Numeral
import Deskhand.Number.Word
import Deskhand.Pattern.Assertion
import Deskhand.Pattern.Basic
import Deskhand.Pattern.Bracketed
import Deskhand.Pattern.CharSet
import Deskhand.Pattern.Escape
import Deskhand.Pattern.Parser
import Deskhand.Pattern.Settings
import Deskhand.Program.Basic
import Deskhand.Program.Code
import Deskhand.Program.Draft
import Deskhand.Program.Link
import Deskhand.Program.Resolve
import Deskhand.Random.Chacha
import Deskhand.Random.Draws
import Deskhand.Record.Shape
import Deskhand.Recovery.Config
import Deskhand.Recovery.Layer
import Deskhand.Recovery.Retry
import Deskhand.Screen.Geometry
import Deskhand.Screen.Record
import Deskhand.Shorter
import Deskhand.Skill.Document
import Deskhand.Skill.Fault
import Deskhand.Skill.Library
import Deskhand.Step.Action
import Deskhand.Step.Data
import Deskhand.Step.Extern
import Deskhand.Step.Files
import Deskhand.Step.Keyboard
import Deskhand.Step.Pointer
import Deskhand.Step.Screen
import Deskhand.Step.Wait
import Deskhand.Step.Window
import Deskhand.Symbols
import Deskhand.Text.Blank
import Deskhand.Text.Case
import Deskhand.Text.CaseTable
import Deskhand.Text.CharClass
import Deskhand.Text.CodePoint
import Deskhand.Text.Digits
import Deskhand.Text.Letters
import Deskhand.Text.Lines
import Deskhand.Text.Quoted
import Deskhand.Text.Search
import Deskhand.Text.Visible
import Deskhand.Text.WordChars
import Deskhand.Value.Basic
import Deskhand.Value.Compare
import Deskhand.World.Basic
import Deskhand.World.Desktop
import Deskhand.World.Duration
import Deskhand.World.Files
import Deskhand.World.Network
import Deskhand.World.Path
import Deskhand.World.Platform
import Deskhand.World.Programs
import Deskhand.World.Remote
import Deskhand.World.Screens
import Deskhand.Yaml.Basic
import Deskhand.Yaml.Reader
import Deskhand.Proofs.Arrivals
import Deskhand.Proofs.Stepwise
import Deskhand.Proofs.Actions
import Deskhand.Proofs.Run
import Deskhand.Proofs.Effects
import Deskhand.Proofs.Stacks
import Deskhand.Proofs.Drafts
import Deskhand.Proofs.Alignment
import Deskhand.Proofs.Calls
import Deskhand.Proofs.Documents
import Deskhand.Proofs.Targets
import Deskhand.Proofs.Reach
import Deskhand.Proofs.Nesting
import Deskhand.Proofs.Blocks
import Deskhand.Proofs.WellNested
import Deskhand.Proofs.Reading
import Deskhand.Proofs.Meaning
import Deskhand.Proofs.Snapshots
import Deskhand.Proofs.Rollback
import Deskhand.Proofs.Resumption
import Deskhand.Proofs.Ending
import Deskhand.Proofs.Derivations
import Deskhand.Proofs.Sentences
import Deskhand.Proofs.Language
import Deskhand.Proofs.FreeNames
import Deskhand.Proofs.Assignment
import Deskhand.Proofs.Budget
import Deskhand.Proofs.Bindings
import Deskhand.Proofs.Globals
import Deskhand.Proofs.Handlers
import Deskhand.Proofs.Pairing
import Deskhand.Proofs.HandledRecovery
import Deskhand.Proofs.FallThrough
import Deskhand.Proofs.Drafting
import Deskhand.Proofs.Origins
import Deskhand.Proofs.Identifiers
import Deskhand.Proofs.Returning
import Deskhand.Proofs.WholeNumbers
import Deskhand.Proofs.Counting
import Deskhand.Proofs.TargetNames
import Deskhand.Proofs.Misses
import Deskhand.Proofs.MissingNames
import Deskhand.Proofs.Layout
import Deskhand.Proofs.Gathering
import Deskhand.Proofs.Definitions
import Deskhand.Proofs.Callees
import Deskhand.Proofs.Coverage
import Deskhand.Proofs.NearestNames
import Deskhand.Proofs.Paths
import Deskhand.Proofs.Trees
import Deskhand.Proofs.TreeChanges
import Deskhand.Proofs.Searching
import Deskhand.Proofs.Objects
import Deskhand.Proofs.Loading
import Deskhand.Proofs.EntryOrder
import Deskhand.Proofs.Retrying
import Deskhand.Proofs.RecoveryLayer
import Deskhand.Proofs.Listening
import Deskhand.Proofs.Control
import Deskhand.Proofs.BackOff
import Deskhand.Proofs.Rereading
import Deskhand.Proofs.Filling
import Deskhand.Proofs.ListOperations
import Deskhand.Proofs.KeyRemoval
import Deskhand.Proofs.LostItems
import Deskhand.Proofs.Comparison
import Deskhand.Proofs.Refilling
import Deskhand.Proofs.Sorting
import Deskhand.Proofs.WordArithmetic
import Deskhand.Proofs.Replacement
import Deskhand.Proofs.Slices
import Deskhand.Proofs.Finding
import Deskhand.Proofs.Writing
import Deskhand.Proofs.Literals
import Deskhand.Proofs.Footprints
import Deskhand.Proofs.NumberInText
import Deskhand.Proofs.Labels
import Deskhand.Proofs.WindowOrigin
import Deskhand.Proofs.PixelRange
import Deskhand.Proofs.Polling
