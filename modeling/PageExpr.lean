import PageExpr.Text.CodeRange
import PageExpr.Text.Alphabetic
import PageExpr.Text.Name
import PageExpr.Text.Blank
import PageExpr.Text.Case
import PageExpr.Number.Integer
import PageExpr.Number.Binary64
import PageExpr.Number.Shortest
import PageExpr.Number.Layout
import PageExpr.Number.Decimal96
import PageExpr.Number.Number
import PageExpr.Number.Numeral
import PageExpr.Value.Fields
import PageExpr.Host.Request
import PageExpr.Value.Basic
import PageExpr.Value.Text
import PageExpr.Value.Equality
import PageExpr.Value.Coercion
import PageExpr.Syntax.Operator
import PageExpr.Syntax.Token
import PageExpr.Syntax.Lexer
import PageExpr.Syntax.ImplicitObject
import PageExpr.Syntax.Expr
import PageExpr.Syntax.Parser
import PageExpr.Syntax.Template
import PageExpr.Text.Utf8
import PageExpr.Host.Scope
import PageExpr.Host.Form
import PageExpr.Host.Environment
import PageExpr.Host.PageContext
import PageExpr.Evaluation.Diagnostic
import PageExpr.Evaluation.Arithmetic
import PageExpr.Evaluation.Comparison
import PageExpr.Evaluation.Evaluator
import PageExpr.Engine.Cache
import PageExpr.Engine.Config
import PageExpr.Engine.Engine
import PageExpr.Engine.Workbench
import PageExpr.Json.Basic
import PageExpr.Json.Reader
import PageExpr.Json.Conversion
import PageExpr.Command.Document
import PageExpr.Command.Check
import PageExpr.Command.Line
import PageExpr.Main
import PageExpr.Proofs.Text.Names
import PageExpr.Proofs.Text.Octets
import PageExpr.Proofs.Number.Rounding
import PageExpr.Proofs.Number.NumericOrder
import PageExpr.Proofs.Number.DecimalRange
import PageExpr.Proofs.Number.DecimalRounding
import PageExpr.Proofs.Number.ShortestDigits
import PageExpr.Proofs.Number.Notation
import PageExpr.Proofs.Number.Reading
import PageExpr.Proofs.Value.Entries
import PageExpr.Proofs.Value.StructuralEquality
import PageExpr.Proofs.Value.Renumbering
import PageExpr.Proofs.Syntax.Grammar
import PageExpr.Proofs.Syntax.Completeness
import PageExpr.Proofs.Syntax.Soundness
import PageExpr.Proofs.Syntax.GrammarAgreement
import PageExpr.Proofs.Syntax.Branching
import PageExpr.Proofs.Syntax.Spelling
import PageExpr.Proofs.Syntax.CanonicalTree
import PageExpr.Proofs.Syntax.CanonicalText
import PageExpr.Proofs.Syntax.Position
import PageExpr.Proofs.Syntax.TemplateParts
import PageExpr.Proofs.Evaluation.StrictMode
import PageExpr.Proofs.Evaluation.Rendering
import PageExpr.Proofs.Syntax.ClosingBrace
import PageExpr.Proofs.Syntax.TemplateText
import PageExpr.Proofs.Syntax.TemplateErrors
import PageExpr.Proofs.Syntax.Scanning
import PageExpr.Proofs.Syntax.Spacing
import PageExpr.Proofs.Value.NumberTexts
import PageExpr.Proofs.Syntax.Rejection
import PageExpr.Proofs.Engine.Fetching
import PageExpr.Proofs.Engine.Transparency
import PageExpr.Proofs.Engine.Recency
import PageExpr.Proofs.Host.RequestData
import PageExpr.Proofs.Host.History
import PageExpr.Proofs.Host.Resolution
import PageExpr.Proofs.Host.QueryString
import PageExpr.Proofs.Host.Submission
import PageExpr.Proofs.Json.Ordered
import PageExpr.Proofs.Json.Writing
import PageExpr.Proofs.Command.Sections
import PageExpr.Proofs.Command.Loading
import PageExpr.Proofs.Evaluation.Attribution
import PageExpr.Proofs.Evaluation.OrderCoherence
import PageExpr.Proofs.Evaluation.LooseEquality
import PageExpr.Proofs.Evaluation.ExactArithmetic
import PageExpr.Proofs.Evaluation.DecimalRoute
import PageExpr.Proofs.Json.RoundTrip
import PageExpr.Proofs.Evaluation.ShortCircuit
import PageExpr.Proofs.Evaluation.Dependence
import PageExpr.Proofs.Evaluation.Numbering
import PageExpr.Proofs.Host.Influence
import PageExpr.Proofs.Syntax.Cursor
import PageExpr.Proofs.Syntax.Descent
import PageExpr.Proofs.Syntax.Consumption
import PageExpr.Proofs.Syntax.DescentAgreement
import PageExpr.Proofs.Syntax.TemplateScan
import PageExpr.Proofs.Syntax.Progress
