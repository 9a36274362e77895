import DeclGen.Command.Arguments
import DeclGen.Command.Exit
import DeclGen.Command.Failure
import DeclGen.Command.Flag
import DeclGen.Command.Generate
import DeclGen.Command.Inspect
import DeclGen.Command.Listing
import DeclGen.Command.Report
import DeclGen.Command.Run
import DeclGen.Command.Suite
import DeclGen.Command.Validate
import DeclGen.Command.Watch
import DeclGen.Config.Dict
import DeclGen.Config.Options
import DeclGen.Config.Substitution
import DeclGen.Cue.Eval
import DeclGen.Cue.Expr
import DeclGen.Cue.Token
import DeclGen.Cue.Value
import DeclGen.Data.Datum
import DeclGen.Data.Moment
import DeclGen.Decimal.Basic
import DeclGen.Decimal.Binary64
import DeclGen.Decimal.Layout
import DeclGen.Document.Basic
import DeclGen.Document.Fault
import DeclGen.Document.Fields
import DeclGen.Document.Loading
import DeclGen.Document.OfJson
import DeclGen.Document.OfToml
import DeclGen.Document.OfYaml
import DeclGen.Job
import DeclGen.Json.Basic
import DeclGen.Json.Compact
import DeclGen.Json.Reader
import DeclGen.Lang
import DeclGen.Log
import DeclGen.Main
import DeclGen.Proofs.Command.Agreement
import DeclGen.Proofs.Command.Generation
import DeclGen.Proofs.Command.GoldenFiles
import DeclGen.Proofs.Command.JsonMode
import DeclGen.Proofs.Command.OutputFiles
import DeclGen.Proofs.Command.OwnEvents
import DeclGen.Proofs.Command.Responses
import DeclGen.Proofs.Command.ShownTrees
import DeclGen.Proofs.Command.SuiteRuns
import DeclGen.Proofs.Command.Watching
import DeclGen.Proofs.Config.Options
import DeclGen.Proofs.Config.Replacement
import DeclGen.Proofs.Decimal.Digits
import DeclGen.Proofs.Decimal.Range
import DeclGen.Proofs.Document.Conversion
import DeclGen.Proofs.Document.Languages
import DeclGen.Proofs.Document.Loading
import DeclGen.Proofs.Document.Reading
import DeclGen.Proofs.Document.Strictness
import DeclGen.Proofs.Job.Outcome
import DeclGen.Proofs.Json.ReadBack
import DeclGen.Proofs.Json.Sourced
import DeclGen.Proofs.Render.Arrangement
import DeclGen.Proofs.Render.Bracketing
import DeclGen.Proofs.Render.Closers
import DeclGen.Proofs.Render.Effective
import DeclGen.Proofs.Render.Fragments
import DeclGen.Proofs.Render.Indentation
import DeclGen.Proofs.Render.Lines
import DeclGen.Proofs.Render.Marks
import DeclGen.Proofs.Render.Overlay
import DeclGen.Proofs.Render.Parameters
import DeclGen.Proofs.Render.Peers
import DeclGen.Proofs.Render.Reading
import DeclGen.Proofs.Render.Refusal
import DeclGen.Proofs.Render.Stepping
import DeclGen.Proofs.Render.Success
import DeclGen.Proofs.Render.Tally
import DeclGen.Proofs.Render.Terminators
import DeclGen.Proofs.Scenario.Golden
import DeclGen.Proofs.Scenario.LoadedRuns
import DeclGen.Proofs.Scenario.OrderSearch
import DeclGen.Proofs.Scenario.Verdicts
import DeclGen.Proofs.Schema.Allowance
import DeclGen.Proofs.Schema.Report
import DeclGen.Proofs.Schema.Tags
import DeclGen.Proofs.Store.Lookup
import DeclGen.Proofs.Store.Naming
import DeclGen.Proofs.Store.Patterns
import DeclGen.Proofs.Store.Rewriting
import DeclGen.Proofs.Store.Trees
import DeclGen.Proofs.Text.Brackets
import DeclGen.Proofs.Text.Casing
import DeclGen.Proofs.Text.Encoding
import DeclGen.Proofs.Text.Quoting
import DeclGen.Proofs.Text.Search
import DeclGen.Proofs.Tree.Checking
import DeclGen.Proofs.Tree.FirstViolation
import DeclGen.Proofs.Tree.Lineage
import DeclGen.Proofs.Tree.Outline
import DeclGen.Proofs.Tree.Pruning
import DeclGen.Render.Dialect
import DeclGen.Render.Layout
import DeclGen.Scenario.Basic
import DeclGen.Scenario.Check
import DeclGen.Scenario.Golden
import DeclGen.Scenario.OfYaml
import DeclGen.Scenario.Run
import DeclGen.Schema.Check
import DeclGen.Schema.Issue
import DeclGen.Schema.Pattern
import DeclGen.Schema.Rules
import DeclGen.Schema.Text
import DeclGen.Store.Atomic
import DeclGen.Store.Files
import DeclGen.Store.Glob
import DeclGen.Store.Path
import DeclGen.Text.Basic
import DeclGen.Text.Blank
import DeclGen.Text.Fold
import DeclGen.Text.Printable
import DeclGen.Text.Quoted
import DeclGen.Text.Upper
import DeclGen.Toml.Reader
import DeclGen.Toml.Scalar
import DeclGen.Toml.Table
import DeclGen.Tree.Dump
import DeclGen.Tree.Json
import DeclGen.Tree.Kind
import DeclGen.Tree.Node
import DeclGen.Tree.OfJson
import DeclGen.Tree.Rules
import DeclGen.Yaml.Cell
import DeclGen.Yaml.Node
import DeclGen.Yaml.Resolve
import DeclGen.Yaml.Scalar
import DeclGen.Yaml.Token
import DeclGen.Yaml.Tree
import DeclGen.Proofs.Document.Paths
