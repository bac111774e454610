import TemplateExpressions.CommandLine
import TemplateExpressions.CommandLine.Arguments
import TemplateExpressions.CommandLine.Binding
import TemplateExpressions.CommandLine.Similarity
import TemplateExpressions.Cursor
import TemplateExpressions.Engine
import TemplateExpressions.Engine.Compile
import TemplateExpressions.Error
import TemplateExpressions.Error.Wording
import TemplateExpressions.Evaluation
import TemplateExpressions.Evaluation.Run
import TemplateExpressions.Expression
import TemplateExpressions.Json
import TemplateExpressions.Json.Number
import TemplateExpressions.Main
import TemplateExpressions.Mapping
import TemplateExpressions.Number.Integer
import TemplateExpressions.Number.Numeral
import TemplateExpressions.Number.Shortest
import TemplateExpressions.Query
import TemplateExpressions.Report
import TemplateExpressions.Report.Ink
import TemplateExpressions.Report.Lines
import TemplateExpressions.Route
import TemplateExpressions.Scopes
import TemplateExpressions.Session
import TemplateExpressions.Template
import TemplateExpressions.Text.Basic
import TemplateExpressions.Text.Blank
import TemplateExpressions.Text.Cells
import TemplateExpressions.Text.Controls
import TemplateExpressions.Text.Hidden
import TemplateExpressions.Text.Name
import TemplateExpressions.Text.Order
import TemplateExpressions.Text.Quoted
import TemplateExpressions.Value
import TemplateExpressions.Value.Access
import TemplateExpressions.Value.Display
import TemplateExpressions.Value.Equality
import TemplateExpressions.World
import TemplateExpressions.Proofs.Context.Change
import TemplateExpressions.Proofs.Context.Ledger
import TemplateExpressions.Proofs.Session.Operation
import TemplateExpressions.Proofs.Session.Effect
import TemplateExpressions.Proofs.Session.Scoping
import TemplateExpressions.Proofs.Context.Stack
import TemplateExpressions.Proofs.Session.Balanced
import TemplateExpressions.Proofs.Session.Repeat
import TemplateExpressions.Proofs.Evaluation.Course
import TemplateExpressions.Proofs.Evaluation.Failure
import TemplateExpressions.Proofs.Text.Bytes
import TemplateExpressions.Proofs.Text.Pieces
import TemplateExpressions.Proofs.Template.Grammar
import TemplateExpressions.Proofs.Engine.Nested
import TemplateExpressions.Proofs.Template.Compilation
import TemplateExpressions.Proofs.Evaluation.Limit
import TemplateExpressions.Proofs.Evaluation.Counter
import TemplateExpressions.Proofs.Session.Inquiry
import TemplateExpressions.Proofs.Session.Modes
import TemplateExpressions.Proofs.Engine.Registration
import TemplateExpressions.Proofs.Engine.Fault
import TemplateExpressions.Proofs.Engine.Raised
import TemplateExpressions.Proofs.Engine.UnknownType
import TemplateExpressions.Proofs.Template.Furthest
import TemplateExpressions.Proofs.Template.Malformed
import TemplateExpressions.Proofs.Engine.Ending
import TemplateExpressions.Proofs.Evaluation.Mirroring
import TemplateExpressions.Proofs.Evaluation.Room
import TemplateExpressions.Proofs.Evaluation.Deferred
import TemplateExpressions.Proofs.Evaluation.Mentioned
import TemplateExpressions.Proofs.Evaluation.Settling
import TemplateExpressions.Proofs.Evaluation.Steady
import TemplateExpressions.Proofs.Session.Fallback
import TemplateExpressions.Proofs.Session.Gone
import TemplateExpressions.Proofs.Session.Walk
import TemplateExpressions.Proofs.Session.Plain
import TemplateExpressions.Proofs.Session.Atomic
import TemplateExpressions.Proofs.Session.Origin
import TemplateExpressions.Proofs.Session.Question
import TemplateExpressions.Proofs.Route.Writing
import TemplateExpressions.Proofs.Evaluation.Substitution
import TemplateExpressions.Proofs.Json.Data
import TemplateExpressions.Proofs.Template.Encoding
import TemplateExpressions.Proofs.Report.Places
import TemplateExpressions.Proofs.Report.Underline
import TemplateExpressions.Proofs.CommandLine.Batch
import TemplateExpressions.Proofs.Number.Decimal
import TemplateExpressions.Proofs.Text.Quoting
import TemplateExpressions.Proofs.Value.Printing
import TemplateExpressions.Proofs.Mapping
import TemplateExpressions.Proofs.Value.Sequence
import TemplateExpressions.Proofs.Session.Roots
import TemplateExpressions.Proofs.CommandLine.Piped
import TemplateExpressions.Proofs.Value.Equality
import TemplateExpressions.Proofs.Engine.Heading
import TemplateExpressions.Proofs.Number.Letters
import TemplateExpressions.Proofs.Number.Roman
import TemplateExpressions.Proofs.Engine.Dispatch
import TemplateExpressions.Proofs.Cursor.Lookahead
