import Branchwork.Calendar
import Branchwork.Capture.Device
import Branchwork.Capture.Failure
import Branchwork.Command.Arguments
import Branchwork.Command.Flag
import Branchwork.Command.Perform
import Branchwork.Command.Request
import Branchwork.Command.Startup
import Branchwork.Console.Action
import Branchwork.Console.Markup
import Branchwork.Console.Outline
import Branchwork.Console.Screen
import Branchwork.Console.Style
import Branchwork.Console.Table
import Branchwork.Console.Wrap
import Branchwork.Environment
import Branchwork.Experiment.Basic
import Branchwork.Experiment.Input
import Branchwork.Experiment.Leaf
import Branchwork.Experiment.Problem
import Branchwork.Experiment.Tree
import Branchwork.Failure
import Branchwork.Fault
import Branchwork.FileSystem.Basic
import Branchwork.FileSystem.Glob
import Branchwork.FileSystem.Snapshot
import Branchwork.Host
import Branchwork.Json.Reader
import Branchwork.Json.Writer
import Branchwork.Main
import Branchwork.Number.Binary64
import Branchwork.Number.Decimal
import Branchwork.Number.DigitLimit
import Branchwork.Number.Literal
import Branchwork.Path
import Branchwork.Pattern.Match
import Branchwork.Pattern.Rename
import Branchwork.Pattern.Slug
import Branchwork.Pipeline.Build
import Branchwork.Pipeline.Executor
import Branchwork.Pipeline.Run
import Branchwork.Proofs.Action
import Branchwork.Proofs.Capture.Device
import Branchwork.Proofs.Command.Call
import Branchwork.Proofs.Command.Flags
import Branchwork.Proofs.Command.Precedence
import Branchwork.Proofs.Command.Startup
import Branchwork.Proofs.Command.Status
import Branchwork.Proofs.Command.Strict
import Branchwork.Proofs.Console.Markup
import Branchwork.Proofs.Experiment.Description
import Branchwork.Proofs.Experiment.EdgeBelow
import Branchwork.Proofs.Experiment.Escapes
import Branchwork.Proofs.Experiment.Loop
import Branchwork.Proofs.Experiment.Nodes
import Branchwork.Proofs.Experiment.Route
import Branchwork.Proofs.Experiment.ShortForm
import Branchwork.Proofs.Experiment.Unfolding
import Branchwork.Proofs.Experiment.WellFormed
import Branchwork.Proofs.FileSystem.Directories
import Branchwork.Proofs.FileSystem.Growth
import Branchwork.Proofs.FileSystem.Named
import Branchwork.Proofs.FileSystem.Search
import Branchwork.Proofs.FileSystem.Spelling
import Branchwork.Proofs.FileSystem.View
import Branchwork.Proofs.FilesOnly
import Branchwork.Proofs.Json.RoundTrip
import Branchwork.Proofs.Number.Digits
import Branchwork.Proofs.Number.Nearest
import Branchwork.Proofs.Number.Numeral
import Branchwork.Proofs.Number.Shortest
import Branchwork.Proofs.Path
import Branchwork.Proofs.Pattern
import Branchwork.Proofs.Pattern.Count
import Branchwork.Proofs.Pattern.Greedy
import Branchwork.Proofs.Pattern.Language
import Branchwork.Proofs.Pattern.Own
import Branchwork.Proofs.Pattern.Slug
import Branchwork.Proofs.Pattern.Split
import Branchwork.Proofs.Pipeline.BuildFault
import Branchwork.Proofs.Pipeline.Collision
import Branchwork.Proofs.Pipeline.Copying
import Branchwork.Proofs.Pipeline.Executor
import Branchwork.Proofs.Pipeline.Flatten
import Branchwork.Proofs.Pipeline.Keys
import Branchwork.Proofs.Pipeline.Materialize
import Branchwork.Proofs.Pipeline.Over
import Branchwork.Proofs.Pipeline.Respelt
import Branchwork.Proofs.Pipeline.WriteStep
import Branchwork.Proofs.Rerun.Again
import Branchwork.Proofs.Rerun.Leaf
import Branchwork.Proofs.Rerun.Run
import Branchwork.Proofs.Rerun.Settled
import Branchwork.Proofs.Result
import Branchwork.Proofs.Run.Escapes
import Branchwork.Proofs.Run.Isolation
import Branchwork.Proofs.Run.Lines
import Branchwork.Proofs.Run.Prepare
import Branchwork.Proofs.Run.SameStart
import Branchwork.Proofs.Run.Sequence
import Branchwork.Proofs.Run.Starts
import Branchwork.Proofs.Settings.EnvironmentFile
import Branchwork.Proofs.Settings.Flags
import Branchwork.Proofs.Settings.Lookup
import Branchwork.Proofs.Settings.Merging
import Branchwork.Proofs.Settings.Options
import Branchwork.Proofs.Stage.Again
import Branchwork.Proofs.Stage.History
import Branchwork.Proofs.Stage.Json
import Branchwork.Proofs.Stage.Label
import Branchwork.Proofs.Stage.Looks
import Branchwork.Proofs.Stage.Outcome
import Branchwork.Proofs.Stage.Selection
import Branchwork.Proofs.Stage.Splitter
import Branchwork.Proofs.Stage.Templates
import Branchwork.Proofs.Stage.Untouched
import Branchwork.Proofs.Stage.Write
import Branchwork.Proofs.Step.FilesOnly
import Branchwork.Proofs.Step.Hands
import Branchwork.Proofs.Step.Named
import Branchwork.Proofs.Step.Texts
import Branchwork.Proofs.Table
import Branchwork.Proofs.Template.Cut
import Branchwork.Proofs.Template.Lookup
import Branchwork.Proofs.Template.References
import Branchwork.Proofs.Text.Blank
import Branchwork.Proofs.Text.Utf8
import Branchwork.Proofs.Value.Pathless
import Branchwork.Proofs.Walk.Basic
import Branchwork.Proofs.Walk.Growth
import Branchwork.Proofs.Walk.Inputs
import Branchwork.Proofs.Walk.Leaves
import Branchwork.Proofs.Walk.Run
import Branchwork.Proofs.Walk.Steps
import Branchwork.Proofs.Yaml.Problems
import Branchwork.Proofs.Yaml.Tokens
import Branchwork.Run
import Branchwork.Script.Arithmetic
import Branchwork.Script.Builtin
import Branchwork.Script.Condition
import Branchwork.Script.Expand
import Branchwork.Script.Field
import Branchwork.Script.Format
import Branchwork.Script.Grammar
import Branchwork.Script.Pattern
import Branchwork.Script.Reader
import Branchwork.Script.Redirect
import Branchwork.Script.Regex
import Branchwork.Script.Run
import Branchwork.Script.Shell
import Branchwork.Script.Syntax
import Branchwork.Script.Utility.Basic
import Branchwork.Script.Utility.Files
import Branchwork.Script.Utility.Programs
import Branchwork.Script.Utility.Search
import Branchwork.Script.Utility.Text
import Branchwork.Settings.Basic
import Branchwork.Settings.EnvironmentFile
import Branchwork.Settings.Flags
import Branchwork.Settings.Reserved
import Branchwork.Stage.Basic
import Branchwork.Stage.Registry
import Branchwork.Stage.Run
import Branchwork.Step.Basic
import Branchwork.Step.Shape
import Branchwork.Template.Lookup
import Branchwork.Template.Render
import Branchwork.Template.Variable
import Branchwork.Text.Base64
import Branchwork.Text.Blank
import Branchwork.Text.Digit
import Branchwork.Text.Half
import Branchwork.Text.Hex
import Branchwork.Text.Lower
import Branchwork.Text.Printable
import Branchwork.Text.Quoted
import Branchwork.Text.Similar
import Branchwork.Text.Utf8
import Branchwork.Text.Width
import Branchwork.Value.Basic
import Branchwork.Value.Display
import Branchwork.World
import Branchwork.Yaml.Character
import Branchwork.Yaml.Load
import Branchwork.Yaml.Node
import Branchwork.Yaml.Node.Parser
import Branchwork.Yaml.Problem
import Branchwork.Yaml.Scalar
import Branchwork.Yaml.Tag
import Branchwork.Yaml.Token
import Branchwork.Yaml.Token.Cursor
import Branchwork.Yaml.Token.Lexer
import Branchwork.Yaml.Token.Property
import Branchwork.Yaml.Token.Scalar
