import TradeFlow.Catalogue
import TradeFlow.Command.Basic
import TradeFlow.Command.Logging
import TradeFlow.Command.Run
import TradeFlow.Compile.Basic
import TradeFlow.Compile.Control
import TradeFlow.Compile.Event
import TradeFlow.Compile.Lower
import TradeFlow.Document.Basic
import TradeFlow.Document.Build
import TradeFlow.Document.Json
import TradeFlow.Document.Schema
import TradeFlow.Document.Text
import TradeFlow.Document.Validate
import TradeFlow.Document.Yaml
import TradeFlow.Graph.Arrange
import TradeFlow.Graph.Basic
import TradeFlow.Graph.Edit
import TradeFlow.Graph.Error
import TradeFlow.Instant
import TradeFlow.Json.Reader
import TradeFlow.Json.Writer
import TradeFlow.Main
import TradeFlow.Number.Binary64
import TradeFlow.Number.Decimal
import TradeFlow.Number.Format
import TradeFlow.Number.Shortest
import TradeFlow.Operator
import TradeFlow.Overlay
import TradeFlow.Program.Basic
import TradeFlow.Program.Block
import TradeFlow.Program.Expression
import TradeFlow.Program.Scope
import TradeFlow.Proofs.Catalogue
import TradeFlow.Proofs.Command.Agreement
import TradeFlow.Proofs.Compile.Abrupt
import TradeFlow.Proofs.Compile.Bindings
import TradeFlow.Proofs.Compile.Brackets
import TradeFlow.Proofs.Compile.Calls
import TradeFlow.Proofs.Compile.Capabilities
import TradeFlow.Proofs.Compile.Correspondence
import TradeFlow.Proofs.Compile.DataFlow
import TradeFlow.Proofs.Compile.Declarations
import TradeFlow.Proofs.Compile.Edited
import TradeFlow.Proofs.Compile.Flow
import TradeFlow.Proofs.Compile.Layout
import TradeFlow.Proofs.Compile.LexicalScope
import TradeFlow.Proofs.Compile.Literals
import TradeFlow.Proofs.Compile.Lowering
import TradeFlow.Proofs.Compile.Outcome
import TradeFlow.Proofs.Compile.Removal
import TradeFlow.Proofs.Compile.Renaming
import TradeFlow.Proofs.Compile.Walk
import TradeFlow.Proofs.Document.Build
import TradeFlow.Proofs.Document.Json
import TradeFlow.Proofs.Document.Literals
import TradeFlow.Proofs.Document.Order
import TradeFlow.Proofs.Document.Override
import TradeFlow.Proofs.Document.Replay
import TradeFlow.Proofs.Document.RoundTrip
import TradeFlow.Proofs.Document.Settings
import TradeFlow.Proofs.Document.ViaJson
import TradeFlow.Proofs.Fields
import TradeFlow.Proofs.Graph.Arrange
import TradeFlow.Proofs.Graph.Columns
import TradeFlow.Proofs.Graph.Extent
import TradeFlow.Proofs.Graph.Refusal
import TradeFlow.Proofs.Graph.Search
import TradeFlow.Proofs.Graph.Tables
import TradeFlow.Proofs.Graph.Undo
import TradeFlow.Proofs.Graph.WellFormed
import TradeFlow.Proofs.Json.Layout
import TradeFlow.Proofs.Json.Number
import TradeFlow.Proofs.Json.Spells
import TradeFlow.Proofs.Number.Decimal
import TradeFlow.Proofs.Number.DecimalOrder
import TradeFlow.Proofs.Number.Fixed
import TradeFlow.Proofs.Number.Order
import TradeFlow.Proofs.Number.Rounding
import TradeFlow.Proofs.Number.Shortest
import TradeFlow.Proofs.Number.Whole
import TradeFlow.Proofs.Overlay
import TradeFlow.Proofs.Program.Block
import TradeFlow.Proofs.Program.Calls
import TradeFlow.Proofs.Program.Factors
import TradeFlow.Proofs.Program.Renaming
import TradeFlow.Proofs.Program.Segments
import TradeFlow.Proofs.Program.Skeleton
import TradeFlow.Proofs.Program.Variables
import TradeFlow.Proofs.Telemetry.Mirror
import TradeFlow.Proofs.Telemetry.Runs
import TradeFlow.Proofs.Telemetry.Spans
import TradeFlow.Proofs.Template
import TradeFlow.Proofs.Text.Indentation
import TradeFlow.Proofs.Text.Lines
import TradeFlow.Proofs.Text.Literal
import TradeFlow.Registry
import TradeFlow.Settings
import TradeFlow.Socket
import TradeFlow.Telemetry.Line
import TradeFlow.Telemetry.Log
import TradeFlow.Telemetry.Metric
import TradeFlow.Telemetry.Span
import TradeFlow.Template
import TradeFlow.Text.Letter
import TradeFlow.Text.Lines
import TradeFlow.Text.Literal
import TradeFlow.Text.Lower
import TradeFlow.Text.Printable
import TradeFlow.Text.Quoted
import TradeFlow.Text.Stray
import TradeFlow.Text.Utf8
import TradeFlow.Value
import TradeFlow.Yaml.Char
import TradeFlow.Yaml.Cursor
import TradeFlow.Yaml.KeyOrder
import TradeFlow.Yaml.Layout
import TradeFlow.Yaml.Scalar
import TradeFlow.Yaml.Token.Basic
import TradeFlow.Yaml.Token.Lexeme
import TradeFlow.Yaml.Token.Mark
import TradeFlow.Yaml.Token.Scan
import TradeFlow.Yaml.Tree.Basic
import TradeFlow.Yaml.Tree.Keyed
import TradeFlow.Yaml.Tree.Parse
import TradeFlow.Yaml.Tree.Visit
