import ItemTable.Reply
import ItemTable.Request
import ItemTable.ServiceError

/-!
# Table services

A table service answers requests from a state of its own and moves to a new
state with every answer.
-/

namespace ItemTable

/-- A service whose state is of type `σ`. -/
structure TableService (σ : Type) where
  get : GetRequest → σ → Except ServiceError GetReply × σ
  put : PutRequest → σ → Except ServiceError WriteReply × σ
  delete : DeleteRequest → σ → Except ServiceError WriteReply × σ
  query : QueryRequest → σ → Except ServiceError PageReply × σ
  scan : ScanRequest → σ → Except ServiceError PageReply × σ
  /-- The most pages that a read from the state has. -/
  pageBound : σ → Nat

end ItemTable
