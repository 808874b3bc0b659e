import ItemTable.Document
import ItemTable.Service.Basic

/-!
# Dispatching documents

A document is sent as the request of an operation.  It is compiled on the way,
and stays as it is if that fails.
-/

namespace ItemTable

/-- The two operations that read pages. -/
inductive ReadKind where
  | query
  | scan
deriving DecidableEq

/-- The operation of a read. -/
def ReadKind.operation : ReadKind → Operation
  | query => .query
  | scan => .scan

/-- A page of items. -/
structure Page where
  items : List Item
  /-- How many items were found. -/
  count : Nat
  /-- How many items were looked at. -/
  scannedCount : Nat
  /-- The key to go on from; empty on the last page. -/
  lastKey : Item
  capacity : Option ConsumedCapacity
deriving DecidableEq

/-- The page of a reply.  A negative count is none. -/
def Page.ofReply (reply : PageReply) : Page where
  items := reply.items
  count := reply.count.toNat
  scannedCount := reply.scannedCount.toNat
  lastKey := reply.lastKey
  capacity := reply.capacity

/-- What an operation leads to. -/
inductive Outcome where
  | item (item : Option Item)
  | written
  | page (page : Page)
deriving DecidableEq

namespace TableService

variable {σ : Type} (service : TableService σ)

/-- Send the request that a document makes. -/
def send
    {ρ α : Type}
    (request : Except ChainError ρ × Document)
    (call : ρ → σ → Except ServiceError α × σ)
    (state : σ) :
    Except ChainError α × Document × σ :=
  match request with
  | (.error error, document) => (.error error, document, state)
  | (.ok request, document) =>
      match call request state with
      | (.error error, state) => (.error (.ofService error), document, state)
      | (.ok reply, state) => (.ok reply, document, state)

/-- Get an item. -/
def getItem (document : Document) (state : σ) :
    Except ChainError (Option Item) × Document × σ :=
  let (reply, document, state) := send document.getRequest service.get state
  (reply.map GetReply.item, document, state)

/-- Store an item. -/
def putItem (document : Document) (state : σ) : Except ChainError Unit × Document × σ :=
  let (reply, document, state) := send document.putRequest service.put state
  (reply.map fun _ => (), document, state)

/-- Delete an item. -/
def deleteItem (document : Document) (state : σ) : Except ChainError Unit × Document × σ :=
  let (reply, document, state) := send document.deleteRequest service.delete state
  (reply.map fun _ => (), document, state)

/-- Read a page. -/
def readPage (kind : ReadKind) (document : Document) (state : σ) :
    Except ChainError Page × Document × σ :=
  let (reply, document, state) :=
    match kind with
    | .query => send document.queryRequest service.query state
    | .scan => send document.scanRequest service.scan state
  (reply.map Page.ofReply, document, state)

/-- Send a document as the request of an operation. -/
def dispatch (operation : Operation) (document : Document) (state : σ) :
    Except ChainError Outcome × Document × σ :=
  match operation with
  | .getItem =>
      let (result, document, state) := service.getItem document state
      (result.map .item, document, state)
  | .putItem =>
      let (result, document, state) := service.putItem document state
      (result.map fun _ => .written, document, state)
  | .deleteItem =>
      let (result, document, state) := service.deleteItem document state
      (result.map fun _ => .written, document, state)
  | .query =>
      let (result, document, state) := service.readPage .query document state
      (result.map .page, document, state)
  | .scan =>
      let (result, document, state) := service.readPage .scan document state
      (result.map .page, document, state)

end TableService

end ItemTable
