import LiveTemplate.Component
import LiveTemplate.Decimal.Layout
import LiveTemplate.Decimal.Reader
import LiveTemplate.Delimiter
import LiveTemplate.Engine
import LiveTemplate.Error
import LiveTemplate.Expr.Eval
import LiveTemplate.Expr.Parser
import LiveTemplate.Expr.Printer
import LiveTemplate.Functions.Methods
import LiveTemplate.Json.Reader
import LiveTemplate.Json.Writer
import LiveTemplate.Markup.Directive
import LiveTemplate.Markup.Tag
import LiveTemplate.Markup.Token
import LiveTemplate.Program.Compiler
import LiveTemplate.Program.Dependencies
import LiveTemplate.Registry
import LiveTemplate.Render.Context
import LiveTemplate.Render.Interpreter
import LiveTemplate.Render.Output
import LiveTemplate.Render.Update
import LiveTemplate.State
import LiveTemplate.Template
import LiveTemplate.Text.Blank
import LiveTemplate.Text.Case
import LiveTemplate.Text.Identifier
import LiveTemplate.Text.Names
import LiveTemplate.Text.Quoted
import LiveTemplate.Text.Region
import LiveTemplate.Text.Width
import LiveTemplate.Tree.Html
import LiveTemplate.Value.Basic
import LiveTemplate.Value.Inspect
import LiveTemplate.Proofs.Functions.Similarity
import LiveTemplate.Proofs.Expr.Reads
import LiveTemplate.Proofs.Expr.TwoRuns
import LiveTemplate.Proofs.Program.Outline
import LiveTemplate.Proofs.Render.Meaning
import LiveTemplate.Proofs.Program.Placement
import LiveTemplate.Proofs.Render.Execution
import LiveTemplate.Proofs.Program.Draft
import LiveTemplate.Proofs.Program.Refinement
import LiveTemplate.Proofs.Program.Blocks
import LiveTemplate.Proofs.Program.Compilation
import LiveTemplate.Proofs.Render.Preservation
import LiveTemplate.Proofs.Expr.Resolved
import LiveTemplate.Proofs.Program.WellFormed
import LiveTemplate.Proofs.Program.Soundness
import LiveTemplate.Proofs.Render.Safety
import LiveTemplate.Proofs.Tree.Likeness
import LiveTemplate.Proofs.Render.Steady
import LiveTemplate.Proofs.Render.View
import LiveTemplate.Proofs.Program.Dependents
import LiveTemplate.Proofs.State.Changes
import LiveTemplate.Proofs.State.FailedWrites
import LiveTemplate.Proofs.State.Lens
import LiveTemplate.Proofs.Render.Incremental
import LiveTemplate.Proofs.Component.Refresh
import LiveTemplate.Proofs.Program.Nesting
import LiveTemplate.Proofs.Registry.History
import LiveTemplate.Proofs.Component.Tokens
import LiveTemplate.Proofs.Decimal.Numerals
import LiveTemplate.Proofs.Decimal.Rounding
import LiveTemplate.Proofs.Decimal.ReadBack
import LiveTemplate.Proofs.Expr.Literals
import LiveTemplate.Proofs.Expr.Written
import LiveTemplate.Proofs.Expr.Lexing
import LiveTemplate.Proofs.Expr.Parsing
import LiveTemplate.Proofs.Expr.Derivation
import LiveTemplate.Proofs.Expr.Reading
import LiveTemplate.Proofs.Expr.RoundTrip
import LiveTemplate.Proofs.Expr.Parsed
import LiveTemplate.Proofs.Component.Inline
import LiveTemplate.Proofs.Render.Closures
import LiveTemplate.Proofs.Tree.Page
import LiveTemplate.Proofs.Delimiter.Enclosed
import LiveTemplate.Proofs.Markup.Tag
import LiveTemplate.Proofs.Markup.Division
import LiveTemplate.Proofs.Markup.Values
import LiveTemplate.Proofs.Markup.Literal
import LiveTemplate.Proofs.Expr.Bound
import LiveTemplate.Proofs.Program.Scoping
import LiveTemplate.Proofs.Render.Watching
import LiveTemplate.Proofs.Render.Capture
import LiveTemplate.Proofs.Component.Identity
import LiveTemplate.Proofs.Engine.Cache
import LiveTemplate.Proofs.Text.Trimming
import LiveTemplate.Proofs.DoubleBrace.Passes
import LiveTemplate.Proofs.DoubleBrace.Segments
import LiveTemplate.Proofs.DoubleBrace.Idempotence
import LiveTemplate.Proofs.DoubleBrace.Comments
import LiveTemplate.Proofs.DoubleBrace.Fragments
import LiveTemplate.Proofs.Location.Regions
import LiveTemplate.Proofs.Location.Expressions
import LiveTemplate.Proofs.Location.Templates
import LiveTemplate.Proofs.Location.Reports
import LiveTemplate.Proofs.Location.Runs
import LiveTemplate.Proofs.Location.Components
import LiveTemplate.Proofs.Render.Attributes
import LiveTemplate.Proofs.Render.Extent
import LiveTemplate.Proofs.DoubleBrace.SingleBraces
import LiveTemplate.Proofs.Delimiter.Strung
import LiveTemplate.Proofs.Expr.Interpolations
import LiveTemplate.Proofs.Expr.Strings
import LiveTemplate.Proofs.Markup.Strings
import LiveTemplate.Proofs.Expr.Chains
import LiveTemplate.Proofs.Render.Rounds
import LiveTemplate.Proofs.Markup.Respacing
import LiveTemplate.Proofs.Expr.Nesting
import LiveTemplate.Proofs.Markup.Headers
import LiveTemplate.Proofs.Registry.Log
import LiveTemplate.Proofs.Functions.Integers
import LiveTemplate.Proofs.Location.Lines
import LiveTemplate.Proofs.Delimiter.Matching
import LiveTemplate.Proofs.Delimiter.Bytes
import LiveTemplate.Proofs.Delimiter.Encoded
