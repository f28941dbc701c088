import Scaffold.Appender
import Scaffold.Apply
import Scaffold.Apply.Attempt
import Scaffold.Apply.Destination
import Scaffold.Apply.Pool
import Scaffold.Apply.Prepare
import Scaffold.Apply.Report
import Scaffold.Apply.Target
import Scaffold.CommandLine.Arguments
import Scaffold.CommandLine.KeyValue
import Scaffold.CommandLine.Run
import Scaffold.Comment
import Scaffold.Directive
import Scaffold.Document
import Scaffold.Failure
import Scaffold.FileOptions
import Scaffold.FileTree
import Scaffold.FileTree.Fault
import Scaffold.Glob
import Scaffold.Identity
import Scaffold.Json.Error
import Scaffold.Json.Printer
import Scaffold.Json.Reader
import Scaffold.Json.Record
import Scaffold.Json.Value
import Scaffold.Main
import Scaffold.Manifest
import Scaffold.Merge.Structured
import Scaffold.Merge.Text
import Scaffold.Merge.Values
import Scaffold.Naming
import Scaffold.Number.Double
import Scaffold.Number.Shortest
import Scaffold.Options
import Scaffold.Parameters
import Scaffold.Path
import Scaffold.Pipeline
import Scaffold.Proofs.Apply.Abort
import Scaffold.Proofs.Apply.Again
import Scaffold.Proofs.Apply.Attempt
import Scaffold.Proofs.Apply.Attribution
import Scaffold.Proofs.Apply.Contributors
import Scaffold.Proofs.Apply.Course
import Scaffold.Proofs.Apply.Destination
import Scaffold.Proofs.Apply.Frame
import Scaffold.Proofs.Apply.Grouping
import Scaffold.Proofs.Apply.Inside
import Scaffold.Proofs.Apply.Interleaving
import Scaffold.Proofs.Apply.Kept
import Scaffold.Proofs.Apply.Merging
import Scaffold.Proofs.Apply.OneWorker
import Scaffold.Proofs.Apply.Order
import Scaffold.Proofs.Apply.Part
import Scaffold.Proofs.Apply.Plan
import Scaffold.Proofs.Apply.Pool
import Scaffold.Proofs.Apply.Precedence
import Scaffold.Proofs.Apply.Report
import Scaffold.Proofs.Apply.Run
import Scaffold.Proofs.Apply.Scattered
import Scaffold.Proofs.Apply.Target
import Scaffold.Proofs.Apply.Template
import Scaffold.Proofs.Apply.Written
import Scaffold.Proofs.CommandLine
import Scaffold.Proofs.Comment
import Scaffold.Proofs.Directive.Containment
import Scaffold.Proofs.Directive.Cursor
import Scaffold.Proofs.Directive.Gap
import Scaffold.Proofs.Directive.Object
import Scaffold.Proofs.Directive.Payload
import Scaffold.Proofs.Directive.Scan
import Scaffold.Proofs.Directive.Site
import Scaffold.Proofs.Directive.Strip
import Scaffold.Proofs.FileTree.Change
import Scaffold.Proofs.FileTree.Frame
import Scaffold.Proofs.FileTree.Goal
import Scaffold.Proofs.FileTree.Make
import Scaffold.Proofs.FileTree.Place
import Scaffold.Proofs.FileTree.Write
import Scaffold.Proofs.Json.Balance
import Scaffold.Proofs.Json.Compact
import Scaffold.Proofs.Json.Equality
import Scaffold.Proofs.Json.Numeral
import Scaffold.Proofs.Json.Pretty
import Scaffold.Proofs.Json.Read
import Scaffold.Proofs.Json.Record
import Scaffold.Proofs.Json.Stray
import Scaffold.Proofs.Json.Taken
import Scaffold.Proofs.Manifest
import Scaffold.Proofs.Manifest.History
import Scaffold.Proofs.Manifest.Print
import Scaffold.Proofs.Merge.Closure
import Scaffold.Proofs.Merge.Commute
import Scaffold.Proofs.Merge.Datetimes
import Scaffold.Proofs.Merge.Frame
import Scaffold.Proofs.Merge.Idempotence
import Scaffold.Proofs.Merge.Keyed
import Scaffold.Proofs.Merge.Path
import Scaffold.Proofs.Merge.Quiet
import Scaffold.Proofs.Merge.Recognition
import Scaffold.Proofs.Merge.Run
import Scaffold.Proofs.Merge.Structured
import Scaffold.Proofs.Merge.Tables
import Scaffold.Proofs.Merge.Text
import Scaffold.Proofs.Merge.Values
import Scaffold.Proofs.Naming
import Scaffold.Proofs.Naming.Letters
import Scaffold.Proofs.Number.Double
import Scaffold.Proofs.Options
import Scaffold.Proofs.Options.Composition
import Scaffold.Proofs.Options.Layers
import Scaffold.Proofs.Outcome
import Scaffold.Proofs.Parameters
import Scaffold.Proofs.Path
import Scaffold.Proofs.Path.Order
import Scaffold.Proofs.Path.Within
import Scaffold.Proofs.Region.Append
import Scaffold.Proofs.Region.Block
import Scaffold.Proofs.Region.Decoded
import Scaffold.Proofs.Region.Field
import Scaffold.Proofs.Region.Header
import Scaffold.Proofs.Region.Layout
import Scaffold.Proofs.Region.Pairing
import Scaffold.Proofs.Region.Spans
import Scaffold.Proofs.Region.Surroundings
import Scaffold.Proofs.Region.Template
import Scaffold.Proofs.Source
import Scaffold.Proofs.Source.Remembering
import Scaffold.Proofs.Text
import Scaffold.Proofs.Text.Braces
import Scaffold.Proofs.Text.Cut
import Scaffold.Proofs.Toml.Bridge
import Scaffold.Proofs.Toml.Datetime
import Scaffold.Proofs.Toml.Reader
import Scaffold.Proofs.Toml.RoundTrip
import Scaffold.Proofs.Toml.Value
import Scaffold.Proofs.UnitName
import Scaffold.Region
import Scaffold.Region.Block
import Scaffold.Region.Header
import Scaffold.Registry
import Scaffold.Resolver
import Scaffold.Source
import Scaffold.Strategy
import Scaffold.Template.Fault
import Scaffold.Template.Filter
import Scaffold.Template.Reader
import Scaffold.Template.Render
import Scaffold.Template.Token
import Scaffold.Template.Tree
import Scaffold.Template.Value
import Scaffold.Text.Blank
import Scaffold.Text.Bytes
import Scaffold.Text.Letter
import Scaffold.Text.Letter.Alphanumeric
import Scaffold.Text.Letter.CaseClasses
import Scaffold.Text.Letter.CaseMaps
import Scaffold.Text.Letter.Unprintable
import Scaffold.Text.Lines
import Scaffold.Text.Quoted
import Scaffold.Text.Split
import Scaffold.Toml.Datetime
import Scaffold.Toml.Lexeme
import Scaffold.Toml.Outline
import Scaffold.Toml.Printer
import Scaffold.Toml.Reader
import Scaffold.Toml.Value
import Scaffold.UnitName
import Scaffold.Yaml.Character
import Scaffold.Yaml.Document
import Scaffold.Yaml.Event
import Scaffold.Yaml.Plain
import Scaffold.Yaml.Printer
import Scaffold.Yaml.Token
import Scaffold.Yaml.Token.Scalar
