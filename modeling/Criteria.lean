import Criteria.Binding
import Criteria.Calendar.Date
import Criteria.Calendar.DateTime
import Criteria.Clause.Builder
import Criteria.Clause.Item
import Criteria.Clause.Sink
import Criteria.Compiler
import Criteria.Condition
import Criteria.Criterion
import Criteria.Fault
import Criteria.FilterTree
import Criteria.FindOperator
import Criteria.Fragment
import Criteria.Json.Reader
import Criteria.Json.Writer
import Criteria.Like
import Criteria.Memory.Containment
import Criteria.Memory.Evaluator
import Criteria.Memory.Filter
import Criteria.Number.Decimal
import Criteria.Number.Double
import Criteria.Number.Exact
import Criteria.Number.Shortest
import Criteria.Operator
import Criteria.Regex.Choice
import Criteria.Regex.Class
import Criteria.Regex.Escape
import Criteria.Regex.Notes
import Criteria.Regex.Opening
import Criteria.Regex.Pattern
import Criteria.Regex.Reader
import Criteria.Regex.Search
import Criteria.Regex.Spot
import Criteria.Regex.Syntax
import Criteria.Regex.Turns
import Criteria.Regex.Width
import Criteria.Registry
import Criteria.Similarity
import Criteria.Sort
import Criteria.Sql.BoundText
import Criteria.Sql.Column
import Criteria.Sql.Expression
import Criteria.Sql.FindFilter
import Criteria.Sql.Output
import Criteria.Sql.Placeholder
import Criteria.Sql.Select
import Criteria.Sql.Selection
import Criteria.Sql.Test
import Criteria.Sql.WhereClause
import Criteria.Template
import Criteria.Text.Blank
import Criteria.Text.Capital
import Criteria.Text.Digit
import Criteria.Text.Encoding
import Criteria.Text.Identifier
import Criteria.Text.Letter
import Criteria.Text.Printable
import Criteria.Text.Quoted
import Criteria.Text.Ranges
import Criteria.Text.Word
import Criteria.Value.Basic
import Criteria.Value.Display
import Criteria.Value.Entries
import Criteria.Value.Equality
import Criteria.Value.Key
import Criteria.Value.Order
import Criteria.Value.Verdict
import Criteria.Proofs.Places
import Criteria.Proofs.Precedence
import Criteria.Proofs.Rendering
import Criteria.Proofs.Meaning
import Criteria.Proofs.Calls
import Criteria.Proofs.SinkAgreement
import Criteria.Proofs.Trees
import Criteria.Proofs.Composition
import Criteria.Proofs.Replay
import Criteria.Proofs.Fragments
import Criteria.Proofs.Guard
import Criteria.Proofs.Names
import Criteria.Proofs.Evaluation
import Criteria.Proofs.EvaluationAgreement
import Criteria.Proofs.Skeletons
import Criteria.Proofs.Failure
import Criteria.Proofs.WordNames
import Criteria.Proofs.Encodings
import Criteria.Proofs.Placeholders
import Criteria.Proofs.Supplies
import Criteria.Proofs.Correspondence
import Criteria.Proofs.Statements
import Criteria.Proofs.Requests
import Criteria.Proofs.Bindings
import Criteria.Proofs.Visits
import Criteria.Proofs.BoundNames
import Criteria.Proofs.Rejections
import Criteria.Proofs.Draws
import Criteria.Proofs.Locations
import Criteria.Proofs.Sequences
import Criteria.Proofs.Jobs
import Criteria.Proofs.Negation
import Criteria.Proofs.Shapes
import Criteria.Proofs.Language
import Criteria.Proofs.Checks
import Criteria.Proofs.Acceptance
import Criteria.Proofs.Growth
import Criteria.Proofs.Workspaces
import Criteria.Proofs.Staging
import Criteria.Proofs.Drafts
import Criteria.Proofs.Seeds
import Criteria.Proofs.Rounding
import Criteria.Proofs.Rationals
import Criteria.Proofs.Identities
import Criteria.Proofs.Regular
import Criteria.Proofs.Numerals
import Criteria.Proofs.ShortestText
import Criteria.Proofs.Documents
import Criteria.Proofs.Comparisons
import Criteria.Proofs.BoundDocuments
import Criteria.Proofs.Quantities
import Criteria.Proofs.Containment
import Criteria.Proofs.Operands
import Criteria.Proofs.ReadValues
import Criteria.Proofs.DocumentEquality
import Criteria.Proofs.FailedCalls
import Criteria.Proofs.Formulas
import Criteria.Proofs.BracketedTexts
import Criteria.Proofs.FinderFilters
import Criteria.Proofs.Wildcards
import Criteria.Proofs.WildcardExpressions
import Criteria.Proofs.Consumption
import Criteria.Proofs.Progress
import Criteria.Proofs.MissingValues
import Criteria.Proofs.Complements
import Criteria.Proofs.BackEnds
import Criteria.Proofs.Rearrangements
import Criteria.Proofs.LeaflessGroups
import Criteria.Proofs.FlatFilters
import Criteria.Proofs.BareConditions
import Criteria.Proofs.EvaluationFaults
import Criteria.Proofs.Symmetry
import Criteria.Proofs.Expansions
import Criteria.Proofs.Substrings
import Criteria.Proofs.LetterCase
import Criteria.Proofs.Suggestions
import Criteria.Proofs.Leftovers
import Criteria.Proofs.Relocation
import Criteria.Proofs.GroupCalls
import Criteria.Proofs.DirectCalls
import Criteria.Proofs.Copies
