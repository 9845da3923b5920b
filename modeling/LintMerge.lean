import LintMerge.Batch.Options
import LintMerge.Batch.Run
import LintMerge.Check.Fault
import LintMerge.Check.Field
import LintMerge.Command.Arguments
import LintMerge.Command.Detect
import LintMerge.Command.Ending
import LintMerge.Command.Init
import LintMerge.Command.Lint
import LintMerge.Command.Request
import LintMerge.Command.Screen
import LintMerge.Config.Basic
import LintMerge.Config.LinterList
import LintMerge.Config.Locate
import LintMerge.Config.Settings
import LintMerge.Config.Template
import LintMerge.Console.Line
import LintMerge.Console.Markup
import LintMerge.Console.Message
import LintMerge.Console.Progress
import LintMerge.Console.Styled
import LintMerge.Console.Table
import LintMerge.Glob.Braces
import LintMerge.Glob.Exclude
import LintMerge.Glob.Match
import LintMerge.Glob.Pattern
import LintMerge.Issue.Basic
import LintMerge.Issue.Filter
import LintMerge.Issue.Order
import LintMerge.Json.Reader
import LintMerge.Json.Strict
import LintMerge.Json.Token
import LintMerge.Json.Writer
import LintMerge.Linter
import LintMerge.Linter.Attempt
import LintMerge.Linter.Detection
import LintMerge.Linter.Event
import LintMerge.Linter.Facts
import LintMerge.Linter.Invocation
import LintMerge.Linter.Overview
import LintMerge.Linter.Program
import LintMerge.Linter.Registry
import LintMerge.Linter.Tool
import LintMerge.Linter.Verdict
import LintMerge.Linter.Version
import LintMerge.Main
import LintMerge.Manifest
import LintMerge.Number.Binary64
import LintMerge.Number.Shortest
import LintMerge.Output.Biome
import LintMerge.Output.Document
import LintMerge.Output.Eslint
import LintMerge.Output.Oxlint
import LintMerge.Output.Reader
import LintMerge.Output.Tsc
import LintMerge.Path
import LintMerge.Process.Basic
import LintMerge.Process.Job
import LintMerge.Process.Launch
import LintMerge.Proofs.Batch.Containment
import LintMerge.Proofs.Batch.Displays
import LintMerge.Proofs.Batch.Hooks
import LintMerge.Proofs.Batch.Isolation
import LintMerge.Proofs.Batch.Schedule
import LintMerge.Proofs.Batch.Supply
import LintMerge.Proofs.Batch.Traces
import LintMerge.Proofs.Check.Outcome
import LintMerge.Proofs.Command.Declared
import LintMerge.Proofs.Command.Flags
import LintMerge.Proofs.Command.Presentation
import LintMerge.Proofs.Command.Starting
import LintMerge.Proofs.Command.Statuses
import LintMerge.Proofs.Command.Stops
import LintMerge.Proofs.Config.Layering
import LintMerge.Proofs.Config.Listing
import LintMerge.Proofs.Config.Loading
import LintMerge.Proofs.Config.Names
import LintMerge.Proofs.Config.Selection
import LintMerge.Proofs.Config.Shadowing
import LintMerge.Proofs.Config.Template
import LintMerge.Proofs.Config.Validation
import LintMerge.Proofs.Console.Rows
import LintMerge.Proofs.Glob.Exclusion
import LintMerge.Proofs.Glob.Expansion
import LintMerge.Proofs.Glob.Grammar
import LintMerge.Proofs.Glob.Language
import LintMerge.Proofs.Glob.Literal
import LintMerge.Proofs.Glob.Names
import LintMerge.Proofs.Glob.Sources
import LintMerge.Proofs.Issue.Filtering
import LintMerge.Proofs.Issue.Fixes
import LintMerge.Proofs.Issue.Places
import LintMerge.Proofs.Issue.Requests
import LintMerge.Proofs.Issue.Sorting
import LintMerge.Proofs.Json.Agreement
import LintMerge.Proofs.Json.Documents
import LintMerge.Proofs.Json.LongNumbers
import LintMerge.Proofs.Json.Numbers
import LintMerge.Proofs.Json.Strings
import LintMerge.Proofs.Json.Tokens
import LintMerge.Proofs.Linter.Crashes
import LintMerge.Proofs.Linter.Launching
import LintMerge.Proofs.Linter.Narrowing
import LintMerge.Proofs.Linter.Precedence
import LintMerge.Proofs.Linter.Returning
import LintMerge.Proofs.Linter.Soundness
import LintMerge.Proofs.Linter.Versions
import LintMerge.Proofs.Output.Continuations
import LintMerge.Proofs.Output.Found
import LintMerge.Proofs.Output.Headers
import LintMerge.Proofs.Output.Inversions
import LintMerge.Proofs.Output.Labels
import LintMerge.Proofs.Output.LongNumbers
import LintMerge.Proofs.Output.Messages
import LintMerge.Proofs.Output.Printed
import LintMerge.Proofs.Output.Records
import LintMerge.Proofs.Output.Refusals
import LintMerge.Proofs.Output.Shape
import LintMerge.Proofs.Output.Spans
import LintMerge.Proofs.Path.Canonical
import LintMerge.Proofs.Path.Keys
import LintMerge.Proofs.Path.Order
import LintMerge.Proofs.Process.Course
import LintMerge.Proofs.Process.Crews
import LintMerge.Proofs.Report.Counts
import LintMerge.Proofs.Report.Lines
import LintMerge.Proofs.Report.Records
import LintMerge.Proofs.Report.RoundTrip
import LintMerge.Proofs.Report.Thresholds
import LintMerge.Proofs.Text.Boundaries
import LintMerge.Proofs.Text.Folding
import LintMerge.Proofs.Text.Offsets
import LintMerge.Proofs.Text.Spelling
import LintMerge.Proofs.Text.Splitting
import LintMerge.Proofs.Time.RoundTrip
import LintMerge.Proofs.Toml.Lines
import LintMerge.Proofs.Toml.LongNumbers
import LintMerge.Proofs.Tree.Agreement
import LintMerge.Proofs.Tree.FirstFile
import LintMerge.Proofs.Tree.Lookup
import LintMerge.Proofs.Tree.Pruning
import LintMerge.Proofs.Tree.Repetition
import LintMerge.Proofs.Tree.Sources
import LintMerge.Proofs.Tree.Spelling
import LintMerge.Proofs.Tree.Union
import LintMerge.Proofs.Tree.Walking
import LintMerge.Proofs.Tree.Writing
import LintMerge.Proofs.Value.Compaction
import LintMerge.Report.Basic
import LintMerge.Report.Compact
import LintMerge.Report.ExitStatus
import LintMerge.Report.Wire
import LintMerge.Severity
import LintMerge.Shell.Arithmetic
import LintMerge.Shell.Builtin
import LintMerge.Shell.Grammar
import LintMerge.Shell.Machine
import LintMerge.Shell.Run
import LintMerge.Shell.Script
import LintMerge.Shell.Token
import LintMerge.Snapshot
import LintMerge.Text.Blank
import LintMerge.Text.Collation
import LintMerge.Text.Digit
import LintMerge.Text.Letter
import LintMerge.Text.Position
import LintMerge.Text.Quoted
import LintMerge.Text.Utf8
import LintMerge.Text.Width
import LintMerge.Time.Stamp
import LintMerge.Toml.Document
import LintMerge.Toml.Fault
import LintMerge.Toml.Scalar
import LintMerge.Tree.Basic
import LintMerge.Tree.Files
import LintMerge.Value
