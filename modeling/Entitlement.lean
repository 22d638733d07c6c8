import Entitlement.Ordered
import Entitlement.Text.Blank
import Entitlement.Text.Case
import Entitlement.Text.Cut
import Entitlement.Text.CodePoint
import Entitlement.Number.Double
import Entitlement.Number.Decimal
import Entitlement.Json.Basic
import Entitlement.Json.Parser
import Entitlement.Json.Printer
import Entitlement.Attribute
import Entitlement.Condition.Time
import Entitlement.Condition.Value
import Entitlement.Condition.Token
import Entitlement.Condition.Expr
import Entitlement.Condition.Conversion
import Entitlement.Condition.Evaluate
import Entitlement.Condition.Basic
import Entitlement.Condition.Cache
import Entitlement.Schema.Token
import Entitlement.Schema.Lexer
import Entitlement.Schema.Document
import Entitlement.Schema.SyntaxError
import Entitlement.Schema.Parser
import Entitlement.Schema.Printer
import Entitlement.Schema.Validation
import Entitlement.Tuple
import Entitlement.Settings.Basic
import Entitlement.Settings.Logging
import Entitlement.Settings.Layer
import Entitlement.Settings.Text
import Entitlement.Settings.Load
import Entitlement.Store.Error
import Entitlement.Failure
import Entitlement.Schema.Compile
import Entitlement.Access.Request
import Entitlement.Access.Resolver
import Entitlement.Access.Evaluate
import Entitlement.Access.Check
import Entitlement.Access.Expand
import Entitlement.Access.Lookup
import Entitlement.Store.Basic
import Entitlement.Store.Reader
import Entitlement.Schema.Admission
import Entitlement.Service.Error
import Entitlement.Service.SchemaCache
import Entitlement.Service.Basic
import Entitlement.Service.Operation
import Entitlement.Schema.Json
import Entitlement.Yaml.Placed
import Entitlement.Yaml.Scalar.Fold
import Entitlement.Yaml.Scalar.Quoted
import Entitlement.Yaml.Scalar.Plain
import Entitlement.Yaml.Scalar.Block
import Entitlement.Yaml.Token
import Entitlement.Yaml.Layout
import Entitlement.Yaml.Lexer
import Entitlement.Yaml.Node
import Entitlement.Yaml.Document
import Entitlement.Proofs.Outcome
import Entitlement.Proofs.Ascending
import Entitlement.Proofs.Access.Step
import Entitlement.Proofs.Access.World
import Entitlement.Proofs.Access.Value
import Entitlement.Proofs.Schema.References
import Entitlement.Proofs.Access.Failures
import Entitlement.Proofs.Service.History
import Entitlement.Proofs.Service.Missing
import Entitlement.Proofs.Service.Transparency
import Entitlement.Proofs.Access.Expansion
import Entitlement.Proofs.Access.Descent
import Entitlement.Proofs.Access.Lookup
import Entitlement.Proofs.Access.Pages
import Entitlement.Proofs.Schema.Passage
import Entitlement.Proofs.Schema.Grammar
import Entitlement.Proofs.Schema.ParserSound
import Entitlement.Proofs.Schema.ParserComplete
import Entitlement.Proofs.Schema.WellFormed
import Entitlement.Proofs.Schema.Written
import Entitlement.Proofs.Schema.RoundTrip
import Entitlement.Proofs.Service.Listing
import Entitlement.Proofs.Access.Positive
import Entitlement.Proofs.Schema.Acyclic
import Entitlement.Proofs.Access.Depth
import Entitlement.Proofs.Access.Origin
import Entitlement.Proofs.Access.Comparison
import Entitlement.Proofs.Access.Limit
import Entitlement.Proofs.Access.Bulk
import Entitlement.Proofs.Service.Faults
import Entitlement.Proofs.Access.Concern
import Entitlement.Proofs.Service.Grants
import Entitlement.Proofs.Service.Tenants
import Entitlement.Proofs.Access.AllRead
import Entitlement.Proofs.Access.OtherTuples
import Entitlement.Proofs.Access.Contextual
import Entitlement.Proofs.Service.OtherTuples
import Entitlement.Proofs.Service.Queries
import Entitlement.Proofs.Access.Monotone
import Entitlement.Proofs.Service.Revoking
import Entitlement.Proofs.Access.Inert
import Entitlement.Proofs.Service.Leftover
import Entitlement.Proofs.Schema.DerivationTree
import Entitlement.Proofs.Schema.Unambiguous
import Entitlement.Proofs.Schema.Acceptance
import Entitlement.Proofs.Schema.Cyclic
import Entitlement.Proofs.Schema.Search
import Entitlement.Proofs.Distinct
import Entitlement.Proofs.Schema.Validity
import Entitlement.Proofs.Schema.Problems
import Entitlement.Proofs.Schema.Regeneration
import Entitlement.Proofs.Store.Order
import Entitlement.Proofs.Store.Ledger
import Entitlement.Proofs.Store.Refinement
import Entitlement.Proofs.Store.Memory
import Entitlement.Proofs.Store.Holding
import Entitlement.Proofs.Access.OtherSchemas
import Entitlement.Proofs.Service.Versions
import Entitlement.Proofs.Service.Written
import Entitlement.Proofs.Access.Inquiry
import Entitlement.Proofs.Service.Afresh
import Entitlement.Proofs.Service.Programs
import Entitlement.Proofs.Service.Keeping
import Entitlement.Proofs.Service.Typed
import Entitlement.Proofs.Service.PlainSubjects
import Entitlement.Proofs.Service.InPlace
import Entitlement.Proofs.Schema.Uncommented
import Entitlement.Proofs.Schema.Gaps
import Entitlement.Proofs.Schema.Places
import Entitlement.Proofs.Schema.Captured
import Entitlement.Proofs.Access.Conversion
import Entitlement.Proofs.Spelling
import Entitlement.Proofs.Service.ManyChecks
import Entitlement.Proofs.Service.Recorded
import Entitlement.Proofs.Service.Readable
import Entitlement.Proofs.Schema.SourceOrder
import Entitlement.Proofs.Schema.FewestParentheses
import Entitlement.Proofs.Service.DepthCount
