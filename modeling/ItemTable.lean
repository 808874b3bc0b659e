import ItemTable.AttributeValue.Basic
import ItemTable.AttributeValue.Feed
import ItemTable.AttributeValue.Wire
import ItemTable.Base64
import ItemTable.Capacity
import ItemTable.Chain.Error
import ItemTable.Chain.State
import ItemTable.Chain.Terminal
import ItemTable.Condition.Basic
import ItemTable.Condition.Evaluation
import ItemTable.Condition.Render
import ItemTable.Config
import ItemTable.Cursor
import ItemTable.Document
import ItemTable.Expression.Error
import ItemTable.Expression.Parse
import ItemTable.Expression.Scope
import ItemTable.Expression.Token
import ItemTable.Form.Basic
import ItemTable.Form.Condition
import ItemTable.Form.Document
import ItemTable.Form.KeySchema
import ItemTable.Json.Basic
import ItemTable.Json.Draft
import ItemTable.Json.Raw.Basic
import ItemTable.Json.Raw.Shape
import ItemTable.Json.Record
import ItemTable.KeyCondition.Language
import ItemTable.KeyCondition.Selection
import ItemTable.KeySchema
import ItemTable.Memory.Basic
import ItemTable.Memory.Service
import ItemTable.NameMap
import ItemTable.Number.Binary64
import ItemTable.Number.Natural
import ItemTable.Number.Numeral
import ItemTable.Number.Shortest
import ItemTable.Operation
import ItemTable.Path
import ItemTable.Placeholder
import ItemTable.Projection
import ItemTable.Proofs.AssociationList
import ItemTable.Proofs.AttributeValue.Feed
import ItemTable.Proofs.AttributeValue.Format
import ItemTable.Proofs.AttributeValue.Wire
import ItemTable.Proofs.Chain.Asking
import ItemTable.Proofs.Chain.BruteForce
import ItemTable.Proofs.Chain.Building
import ItemTable.Proofs.Chain.Constraints
import ItemTable.Proofs.Chain.Counting
import ItemTable.Proofs.Chain.FullRead
import ItemTable.Proofs.Chain.History
import ItemTable.Proofs.Chain.Pagewise
import ItemTable.Proofs.Chain.Resolved
import ItemTable.Proofs.Chain.Sending
import ItemTable.Proofs.Chain.Writing
import ItemTable.Proofs.Condition.DataIndependence
import ItemTable.Proofs.Condition.Equality
import ItemTable.Proofs.Condition.Expansion
import ItemTable.Proofs.Condition.Failure
import ItemTable.Proofs.Condition.Form
import ItemTable.Proofs.Condition.Made
import ItemTable.Proofs.Condition.Spelling
import ItemTable.Proofs.Condition.Tokens
import ItemTable.Proofs.Document.Compiling
import ItemTable.Proofs.Document.Continuing
import ItemTable.Proofs.Document.Conveying
import ItemTable.Proofs.Document.Restarting
import ItemTable.Proofs.Expression.Agreement
import ItemTable.Proofs.Expression.Enlarging
import ItemTable.Proofs.Expression.Grammar
import ItemTable.Proofs.Expression.LeftOver
import ItemTable.Proofs.Expression.Lexing
import ItemTable.Proofs.Expression.Mentions
import ItemTable.Proofs.Expression.Noting
import ItemTable.Proofs.Expression.Operands
import ItemTable.Proofs.Expression.Parsing
import ItemTable.Proofs.Expression.Projection
import ItemTable.Proofs.Expression.Reading
import ItemTable.Proofs.Expression.RoundTrip
import ItemTable.Proofs.Expression.Scanning
import ItemTable.Proofs.Expression.Scopes
import ItemTable.Proofs.Expression.Spacing
import ItemTable.Proofs.Expression.WellFormed
import ItemTable.Proofs.Expression.Widening
import ItemTable.Proofs.KeyCondition.Agreement
import ItemTable.Proofs.KeyCondition.Arrangement
import ItemTable.Proofs.KeyCondition.Clauses
import ItemTable.Proofs.KeyCondition.Evaluation
import ItemTable.Proofs.KeyCondition.Grammar
import ItemTable.Proofs.KeyOrder
import ItemTable.Proofs.Memory.Alike
import ItemTable.Proofs.Memory.Answers
import ItemTable.Proofs.Memory.Counts
import ItemTable.Proofs.Memory.Draining
import ItemTable.Proofs.Memory.Listing
import ItemTable.Proofs.Memory.Reachability
import ItemTable.Proofs.Memory.Refusals
import ItemTable.Proofs.Memory.Writes
import ItemTable.Proofs.NameMap
import ItemTable.Proofs.Path.Agreement
import ItemTable.Proofs.Path.RoundTrip
import ItemTable.Proofs.Path.Segments
import ItemTable.Proofs.Placeholder.Allotment
import ItemTable.Proofs.Placeholder.Calls
import ItemTable.Proofs.Placeholder.Numbering
import ItemTable.Proofs.Placeholder.Passes
import ItemTable.Proofs.Projection.Exact
import ItemTable.Proofs.Projection.RoundTrip
import ItemTable.Proofs.Remote.Call
import ItemTable.Proofs.Remote.Value
import ItemTable.Proofs.Sequencing
import ItemTable.Proofs.Service.Course
import ItemTable.Proofs.Service.Recording
import ItemTable.Proofs.Service.Resolving
import ItemTable.Proofs.Storage.Alike
import ItemTable.Proofs.Storage.EmptyPartitions
import ItemTable.Proofs.Storage.FiniteMap
import ItemTable.Proofs.Storage.Items
import ItemTable.Proofs.Storage.Lookup
import ItemTable.Proofs.Storage.NumericKeys
import ItemTable.Proofs.Storage.Pages
import ItemTable.Proofs.Storage.Qualifying
import ItemTable.Proofs.Storage.Rows
import ItemTable.Proofs.Storage.Soundness
import ItemTable.Proofs.Storage.View
import ItemTable.Proofs.Text.MarkedWord
import ItemTable.Proofs.Text.Splitting
import ItemTable.Proofs.Wire
import ItemTable.Remote.Answer
import ItemTable.Remote.Call
import ItemTable.Remote.Failure
import ItemTable.Remote.Service
import ItemTable.Remote.Value
import ItemTable.Reply
import ItemTable.Request
import ItemTable.Resolution
import ItemTable.Scripted
import ItemTable.Service.Basic
import ItemTable.Service.Dispatch
import ItemTable.Service.Paging
import ItemTable.ServiceError
import ItemTable.Storage.Basic
import ItemTable.Storage.Read
import ItemTable.Text.Blank
import ItemTable.Text.Quoted
import ItemTable.Text.Split
import ItemTable.Text.Visible
