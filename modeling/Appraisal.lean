import Appraisal.Text.Interval
import Appraisal.Text.Letter
import Appraisal.Text.Printable
import Appraisal.Text.CodePoint
import Appraisal.Text.Upper
import Appraisal.Text.Digit
import Appraisal.Text.Blank
import Appraisal.Text.Cut
import Appraisal.Text.Quoted
import Appraisal.Listing
import Appraisal.Number.Basic
import Appraisal.Number.Quantity
import Appraisal.Number.Decimal
import Appraisal.Number.Digits
import Appraisal.Value
import Appraisal.Fault
import Appraisal.Column
import Appraisal.Address.Spelling
import Appraisal.Address.Basic
import Appraisal.Address.Range
import Appraisal.Formula.Lexeme
import Appraisal.Formula.Token
import Appraisal.Formula.Signature
import Appraisal.Formula.Tree
import Appraisal.Formula.Parser
import Appraisal.Formula.Mention
import Appraisal.Json
import Appraisal.Snapshot
import Appraisal.Number.Power
import Appraisal.Number.Arithmetic
import Appraisal.Function.Primitive
import Appraisal.Function.Library
import Appraisal.Text.Sorted
import Appraisal.DepthFirst
import Appraisal.Graph.Basic
import Appraisal.Graph.Cycle
import Appraisal.Graph.Order
import Appraisal.Graph.Closure
import Appraisal.Number.Guarded
import Appraisal.Evaluation.Workbook
import Appraisal.Evaluation.Walk
import Appraisal.Evaluation.Coverage
import Appraisal.Evaluation.KeyFigures
import Appraisal.Evaluation.Query
import Appraisal.Evaluation.Desk
import Appraisal.Parameters.Basic
import Appraisal.Parameters.Field
import Appraisal.Parameters.Settings
import Appraisal.Parameters.Scenario
import Appraisal.Valuation.Transcendental
import Appraisal.Valuation.Factors
import Appraisal.Valuation.Anchors
import Appraisal.Valuation.Earth
import Appraisal.Valuation.Fit
import Appraisal.Valuation.Model
import Appraisal.Valuation.GroundTruth
import Appraisal.Valuation.Consistency
import Appraisal.Proofs.Checked
import Appraisal.Proofs.DepthFirst
import Appraisal.Proofs.Keeping
import Appraisal.Proofs.Evaluation.Settling
import Appraisal.Proofs.Evaluation.History
import Appraisal.Proofs.Evaluation.Operand
import Appraisal.Proofs.Evaluation.Outcome
import Appraisal.Proofs.Graph.Edges
import Appraisal.Proofs.Graph.Placing
import Appraisal.Proofs.Graph.Series
import Appraisal.Proofs.Graph.Circles
import Appraisal.Proofs.Graph.Reachability
import Appraisal.Proofs.Graph.Arrangement
import Appraisal.Proofs.Graph.Failure
import Appraisal.Proofs.Column
import Appraisal.Proofs.Address.Plain
import Appraisal.Proofs.Address.Spelled
import Appraisal.Proofs.Address.Named
import Appraisal.Proofs.Text.Decimal
import Appraisal.Proofs.Text.Run
import Appraisal.Proofs.Text.Upper
import Appraisal.Proofs.Address.Rendered
import Appraisal.Proofs.Address.Keys
import Appraisal.Proofs.Address.Printing
import Appraisal.Proofs.Formula.Numeral
import Appraisal.Proofs.Formula.Grammar
import Appraisal.Proofs.Formula.Acceptance
import Appraisal.Proofs.Formula.Cutting
import Appraisal.Proofs.Formula.Rendering
import Appraisal.Proofs.Formula.Reference
import Appraisal.Proofs.Formula.Phrase
import Appraisal.Proofs.Formula.Layout
import Appraisal.Proofs.Formula.Scan
import Appraisal.Proofs.Formula.Mentions
import Appraisal.Proofs.Formula.Completeness
import Appraisal.Proofs.Formula.Literals
import Appraisal.Proofs.Formula.Lookahead
import Appraisal.Proofs.Formula.Pieces
import Appraisal.Proofs.Formula.Spacing
import Appraisal.Proofs.Snapshot
import Appraisal.Proofs.Snapshot.Shape
import Appraisal.Proofs.Snapshot.Form
import Appraisal.Proofs.Number.Unit
import Appraisal.Proofs.Number.Expansion
import Appraisal.Proofs.Number.Range
import Appraisal.Proofs.Number.Rounding
import Appraisal.Proofs.Number.Order
import Appraisal.Proofs.Evaluation.Calculate
import Appraisal.Proofs.Evaluation.KeyFigures
import Appraisal.Proofs.Evaluation.Lookup
import Appraisal.Proofs.Valuation.Fit
import Appraisal.Proofs.Valuation.GroundTruth
import Appraisal.Proofs.Valuation.Baseline
import Appraisal.Proofs.Formula.Spreading
import Appraisal.Proofs.Evaluation.Locality
import Appraisal.Proofs.Evaluation.Recompute
import Appraisal.Proofs.Evaluation.AllValues
import Appraisal.Proofs.Evaluation.Reordering
import Appraisal.Proofs.Evaluation.Spellings
import Appraisal.Proofs.Evaluation.Turn
import Appraisal.Proofs.Evaluation.Coverage
import Appraisal.Proofs.Parameters.RoundTrip
import Appraisal.Proofs.Parameters.Loading
import Appraisal.Proofs.Parameters.Editing
import Appraisal.Proofs.Valuation.Exact
import Appraisal.Proofs.Valuation.Reproduction
import Appraisal.Proofs.Valuation.Strict
import Appraisal.Proofs.Valuation.Totality
import Appraisal.Proofs.Address.Rectangle
import Appraisal.Proofs.Function.Recovery
import Appraisal.Proofs.Function.Aggregate
import Appraisal.Proofs.Evaluation.Aggregate
import Appraisal.Proofs.Evaluation.Footprint
import Appraisal.Proofs.Valuation.Penetration
import Appraisal.Proofs.Valuation.Bounds
import Appraisal.Proofs.Valuation.Currency
import Appraisal.Proofs.Valuation.Constraint
import Appraisal.Proofs.Listing
import Appraisal.Proofs.Function.Extension
import Appraisal.Proofs.Evaluation.Calls
import Appraisal.Proofs.Formula.Patterns
import Appraisal.Proofs.Formula.Lossless
import Appraisal.Proofs.Valuation.Neutral
import Appraisal.Proofs.Valuation.Divergence
