import EntityGraph.OrderedMap
import EntityGraph.Text.Front
import EntityGraph.Text.Invisible
import EntityGraph.Text.Search
import EntityGraph.Text.Lines
import EntityGraph.Text.Outline
import EntityGraph.Decimal.Double
import EntityGraph.Decimal.Shortest
import EntityGraph.Decimal.Layout
import EntityGraph.Decimal.Read
import EntityGraph.Json.Value
import EntityGraph.Json.Number
import EntityGraph.Json.Reader
import EntityGraph.Json.Writer
import EntityGraph.Yaml.Cursor
import EntityGraph.Yaml.BlockText
import EntityGraph.Yaml.Folding
import EntityGraph.Yaml.PlainText
import EntityGraph.Yaml.QuotedText
import EntityGraph.Yaml.Tag
import EntityGraph.Yaml.Token
import EntityGraph.Yaml.Lexer
import EntityGraph.Yaml.Node
import EntityGraph.Yaml.Scalar
import EntityGraph.Yaml.Value
import EntityGraph.Yaml.Reader
import EntityGraph.Toml.Value
import EntityGraph.Toml.QuotedText
import EntityGraph.Toml.Scalar
import EntityGraph.Toml.Reader
import EntityGraph.Vocabulary
import EntityGraph.Namespaces
import EntityGraph.Files
import EntityGraph.Entity.Literal
import EntityGraph.Entity.Slot
import EntityGraph.Entity.Basic
import EntityGraph.Entity.Collection
import EntityGraph.Entity.Document
import EntityGraph.Schema.Cardinality
import EntityGraph.Schema.Constraint
import EntityGraph.Schema.Basic
import EntityGraph.Schema.Builder
import EntityGraph.Schema.Compact.Basic
import EntityGraph.Schema.Compact.Reader
import EntityGraph.Schema.Source
import EntityGraph.Store.Index
import EntityGraph.Store.Provider
import EntityGraph.Store.Basic
import EntityGraph.Validation.Violation
import EntityGraph.Validation.Occurrence
import EntityGraph.Validation.Error
import EntityGraph.Validation.Settings
import EntityGraph.Validation.Rule
import EntityGraph.Validation.Run
import EntityGraph.Validation.Related
import EntityGraph.Validation.Check
import EntityGraph.Validation.Validator
import EntityGraph.Scenario.Assertion
import EntityGraph.Scenario.Error
import EntityGraph.Scenario.Operations
import EntityGraph.Scenario.Basic
import EntityGraph.Proofs.Outcome
import EntityGraph.Proofs.Batch
import EntityGraph.Proofs.Reachable
import EntityGraph.Proofs.Journal
import EntityGraph.Proofs.Listing
import EntityGraph.Proofs.Refinement
import EntityGraph.Proofs.Targets
import EntityGraph.Proofs.Neighbours
import EntityGraph.Proofs.Findings
import EntityGraph.Proofs.Referrers
import EntityGraph.Proofs.DatasetContext
import EntityGraph.Proofs.Canonical
import EntityGraph.Proofs.Idempotence
import EntityGraph.Proofs.Shortening
import EntityGraph.Proofs.Pointwise
import EntityGraph.Proofs.Lineage
import EntityGraph.Proofs.Expansion
import EntityGraph.Proofs.Declarations
import EntityGraph.Proofs.Failure
import EntityGraph.Proofs.Compilation
import EntityGraph.Proofs.Sameness
import EntityGraph.Proofs.Agreement
import EntityGraph.Proofs.Writing
import EntityGraph.Proofs.Standalone
import EntityGraph.Proofs.Occurrence
import EntityGraph.Proofs.OpenWorld
import EntityGraph.Proofs.Footprint
import EntityGraph.Proofs.Abstractness
import EntityGraph.Proofs.Substitution
import EntityGraph.Proofs.Subsumption
import EntityGraph.Proofs.Loading
import EntityGraph.Proofs.Reports
import EntityGraph.Proofs.Counting
import EntityGraph.Proofs.Links
import EntityGraph.Proofs.Bounds
import EntityGraph.Proofs.Reordering
import EntityGraph.Proofs.Shuffling
import EntityGraph.Proofs.Ascent
import EntityGraph.Proofs.Inheritance
import EntityGraph.Proofs.Strictness
import EntityGraph.Proofs.Abbreviation
import EntityGraph.Proofs.Interchange
import EntityGraph.Proofs.Respelling
import EntityGraph.Proofs.Retention
import EntityGraph.Proofs.Shape
import EntityGraph.Proofs.Grammar
import EntityGraph.Proofs.Lookup
import EntityGraph.Proofs.ClosedWorld
import EntityGraph.Proofs.Numbering
import EntityGraph.Proofs.Replacing
import EntityGraph.Proofs.Scripts
import EntityGraph.Proofs.Redefinition
