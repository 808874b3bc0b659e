import ItemTable.Chain.Error
import ItemTable.Request

/-!
# Documents

A document holds everything that a request of any operation may need.  Its
conditions and its projection are given as trees and names or as texts of
expressions.

Compiling a document renders what is not a text yet.  Placeholders that the
document explains already keep their meanings, so the texts that are there mean
the same afterwards.  Either everything is rendered or nothing changes.
-/

namespace ItemTable

/-- A condition of a document. -/
inductive ExpressionField where
  | raw (condition : Condition)
  | compiled (text : String)
deriving DecidableEq

/-- The text of a condition, if it has been rendered. -/
def ExpressionField.text? : ExpressionField → Option String
  | raw _ => none
  | compiled text => some text

/-- The projection of a document. -/
inductive ProjectionField where
  | raw (entries : List String)
  | compiled (text : String)
deriving DecidableEq

/-- The text of a projection, if it has been rendered. -/
def ProjectionField.text? : ProjectionField → Option String
  | raw _ => none
  | compiled text => some text

/-- What a request of any operation is made from. -/
structure Document where
  tableName : String
  index : Option String
  key : Item
  item : Item
  keyCondition : Option ExpressionField
  filter : Option ExpressionField
  /-- What a write depends on. -/
  condition : Option ExpressionField
  projection : Option ProjectionField
  names : NameMap String
  values : NameMap AttributeValue
  consistent : Option Bool
  limit : Option Nat
  forward : Option Bool
  select : Option Select
  /-- The key to go on from; empty for the first page. -/
  start : Item
  capacity : Option CapacityDetail
deriving DecidableEq

namespace Document

/-- The document that names a table and says nothing else. -/
def ofTable (tableName : String) : Document where
  tableName := tableName
  index := none
  key := ∅
  item := ∅
  keyCondition := none
  filter := none
  condition := none
  projection := none
  names := ∅
  values := ∅
  consistent := none
  limit := none
  forward := none
  select := none
  start := ∅
  capacity := none

/-! ## Compiling -/

/-- Whether nothing is left to render. -/
def isCompiled (document : Document) : Bool :=
  isText document.keyCondition && isText document.filter && isText document.condition &&
    document.projection.all fun field => field.text?.isSome
where
  isText (field : Option ExpressionField) : Bool :=
    field.all fun field => field.text?.isSome

/-- Render a key condition. -/
def compileKeyCondition
    (table : PlaceholderTable) :
    Option ExpressionField →
      Except KeyConditionFault (Option ExpressionField × PlaceholderTable)
  | some (.raw condition) => do
      let (text, table) ← table.renderKeyCondition condition
      return (some (.compiled text), table)
  | field => .ok (field, table)

/-- Render a condition. -/
def compileCondition
    (table : PlaceholderTable) :
    Option ExpressionField → Option ExpressionField × PlaceholderTable
  | some (.raw condition) =>
      let (text, table) := table.render condition
      (some (.compiled text), table)
  | field => (field, table)

/-- Render a projection; one without names disappears. -/
def compileProjection
    (table : PlaceholderTable) :
    Option ProjectionField → Option ProjectionField × PlaceholderTable
  | some (.raw entries) =>
      let (text, table) := table.renderProjection entries
      (text.map .compiled, table)
  | field => (field, table)

/-- Render everything that is not a text yet. -/
def compile (document : Document) : Except KeyConditionFault Document :=
  if document.isCompiled then
    .ok document
  else do
    let table := PlaceholderTable.seeded document.names document.values
    let (keyCondition, table) ← compileKeyCondition table document.keyCondition
    let (filter, table) := compileCondition table document.filter
    let (condition, table) := compileCondition table document.condition
    let (projection, table) := compileProjection table document.projection
    return { document with
      keyCondition, filter, condition, projection
      names := table.names.meanings
      values := table.values.meanings }

/-! ## Requests -/

/-- The text of a condition of the document. -/
def text? (field : Option ExpressionField) : Option String :=
  field >>= ExpressionField.text?

/-- The text of the projection. -/
def projectionText? (document : Document) : Option String :=
  document.projection >>= ProjectionField.text?

/-- The limit of a request, an integer of 32 bits. -/
def requestLimit (document : Document) : Except RequestFault (Option Int) :=
  match document.limit with
  | none => .ok none
  | some limit =>
      if limit ≤ RequestFault.largestLimit then
        .ok (some limit)
      else
        .error (.limitTooLarge limit)

/-- The request for an item that a compiled document makes. -/
def toGetRequest (document : Document) : GetRequest where
  tableName := document.tableName
  key := document.key
  consistent := document.consistent
  projection := document.projectionText?
  names := document.names
  capacity := document.capacity

/-- The request to store an item that a compiled document makes. -/
def toPutRequest (document : Document) : PutRequest where
  tableName := document.tableName
  item := document.item
  condition := text? document.condition
  names := document.names
  values := document.values
  capacity := document.capacity

/-- The request to delete an item that a compiled document makes. -/
def toDeleteRequest (document : Document) : DeleteRequest where
  tableName := document.tableName
  key := document.key
  condition := text? document.condition
  names := document.names
  values := document.values
  capacity := document.capacity

/-- The scan that a compiled document makes. -/
def toScanRequest (document : Document) : Except RequestFault ScanRequest := do
  return {
    tableName := document.tableName
    index := document.index
    filter := text? document.filter
    projection := document.projectionText?
    names := document.names
    values := document.values
    limit := ← document.requestLimit
    start := document.start
    select := document.select
    consistent := document.consistent
    capacity := document.capacity }

/-- The query that a compiled document makes. -/
def toQueryRequest (document : Document) : Except RequestFault QueryRequest := do
  return {
    toScanRequest := ← document.toScanRequest
    keyCondition := text? document.keyCondition
    forward := document.forward }

/-- Compile a document and make a request from it.  The document stays compiled
if the request cannot be made. -/
def compileTo
    {α : Type}
    (document : Document)
    (make : Document → Except RequestFault α) :
    Except ChainError α × Document :=
  match document.compile with
  | .error fault => (.error (.invalidKeyCondition fault), document)
  | .ok compiled =>
      match make compiled with
      | .error fault => (.error (.invalidRequest fault), compiled)
      | .ok request => (.ok request, compiled)

/-- The request for an item. -/
def getRequest (document : Document) : Except ChainError GetRequest × Document :=
  document.compileTo fun compiled => .ok compiled.toGetRequest

/-- The request to store an item. -/
def putRequest (document : Document) : Except ChainError PutRequest × Document :=
  document.compileTo fun compiled => .ok compiled.toPutRequest

/-- The request to delete an item. -/
def deleteRequest (document : Document) : Except ChainError DeleteRequest × Document :=
  document.compileTo fun compiled => .ok compiled.toDeleteRequest

/-- The query. -/
def queryRequest (document : Document) : Except ChainError QueryRequest × Document :=
  document.compileTo toQueryRequest

/-- The scan. -/
def scanRequest (document : Document) : Except ChainError ScanRequest × Document :=
  document.compileTo toScanRequest

end Document

end ItemTable
