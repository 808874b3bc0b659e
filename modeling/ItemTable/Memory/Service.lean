import ItemTable.Condition.Evaluation
import ItemTable.Expression.Scope
import ItemTable.KeyCondition.Selection
import ItemTable.Memory.Basic
import ItemTable.Number.Natural
import ItemTable.Projection
import ItemTable.Service.Basic

/-!
# Requests to tables in memory

A request names a table, and its expressions are read before anything happens to
the items.  A limit bounds the items that a read looks at, not those that it
finds: a filter is applied to the page afterwards.
-/

namespace ItemTable.Memory

/-! ## Checking requests -/

/-- The error for an expression of a request that cannot be used. -/
def invalid (part : String) (error : ExpressionError) : ServiceError :=
  .validation ("Invalid " ++ part ++ ": " ++ error.message)

/-- The result, or the error for a part of a request. -/
def orInvalid {α : Type} (part : String) : Except ExpressionError α → Except ServiceError α
  | .ok result => .ok result
  | .error error => .error (invalid part error)

/-- The result, or the error for a key that is wrong. -/
def orKeyError {α : Type} : Except KeyError α → Except ServiceError α
  | .ok result => .ok result
  | .error error => .error (.validation error.message)

/-- Read an optional condition. -/
def readCondition
    (scope : Scope)
    (part : String) :
    Option String → Except ServiceError (Option Condition × Scope)
  | none => .ok (none, scope)
  | some text => do
      let (condition, scope) := scope.condition text
      return (some (← orInvalid part condition), scope)

/-- Read an optional projection. -/
def readProjection
    (scope : Scope) :
    Option String → Except ServiceError (Option (List Path) × Scope)
  | none => .ok (none, scope)
  | some text => do
      let (paths, scope) := scope.projection text
      return (some (← orInvalid "ProjectionExpression" paths), scope)

/-- The condition of a write. -/
def writeCondition
    (names : NameMap String)
    (values : NameMap AttributeValue)
    (text : Option String) :
    Except ServiceError (Option Condition) := do
  let (condition, scope) ← readCondition (.start names values) "ConditionExpression" text
  orInvalid "ExpressionAttributes" scope.finish
  return condition

/-- Fail unless a condition holds of the item that is there; where there is none,
of the item without attributes. -/
def check (condition : Option Condition) (stored : Option Item) : Except ServiceError Unit :=
  match condition with
  | none => .ok ()
  | some condition => do
      if ← orInvalid "ConditionExpression" (condition.holds (stored.getD ∅)) then
        return ()
      else
        .error (.checkFailed "The conditional request failed")

/-- The limit of a read. -/
def readLimit : Option Int → Except ServiceError (Option Nat)
  | none => .ok none
  | some limit =>
      if 0 < limit then
        .ok (some limit.toNat)
      else
        .error (.validation "Limit must be greater than 0")

/-- Fail if what a read returns does not fit its projection. -/
def checkSelect (select : Option Select) (projection : Option String) :
    Except ServiceError Unit :=
  match select, projection with
  | some .count, some _ | some .allAttributes, some _ =>
      .error (.validation ("Cannot specify the ProjectionExpression when choosing " ++
        "to get ALL_ATTRIBUTES or COUNT"))
  | some .specificAttributes, none =>
      .error (.validation "SPECIFIC_ATTRIBUTES requires a ProjectionExpression")
  | _, _ => .ok ()

/-- The capacity that is reported, if it is asked for. -/
def report
    (detail : Option CapacityDetail)
    (capacity : ConsumedCapacity) :
    Option ConsumedCapacity :=
  if detail.any CapacityDetail.isReported then some capacity else none

/-- The part of an item that a reply holds. -/
def present (projection : Option (List Path)) (item : Item) : Item :=
  match projection with
  | some paths => item.project paths
  | none => item

/-! ## Single items -/

/-- Answer a request for an item. -/
def get (request : GetRequest) (memory : Memory) : Except ServiceError GetReply := do
  let table ← memory.table request.tableName
  let key ← orKeyError (table.schema.exactKey request.key)
  let (projection, scope) ← readProjection (.start request.names ∅) request.projection
  orInvalid "ProjectionExpression" scope.finish
  let item := table.item? key
  let size := (item.map Item.storedSize).getD 0
  return {
    item := item.map (present projection)
    capacity := report request.capacity
      (.ofRead request.tableName size (request.consistent.getD false)) }

/-- Answer a request to store an item. -/
def put (request : PutRequest) (memory : Memory) : Except ServiceError WriteReply × Memory :=
  let prepared := do
    let table ← memory.table request.tableName
    let condition ← writeCondition request.names request.values request.condition
    return (table, condition)
  match prepared with
  | .error error => (.error error, memory)
  | .ok (table, condition) =>
      let (result, table) := table.putIf request.item (check condition)
      let memory := memory.setTable request.tableName table
      match result with
      | .error (.key error) => (.error (.validation error.message), memory)
      | .error (.refused error) => (.error error, memory)
      | .ok _ =>
          let capacity := .ofWrite request.tableName request.item.storedSize
          (.ok ⟨report request.capacity capacity⟩, memory)

/-- Answer a request to delete an item. -/
def delete (request : DeleteRequest) (memory : Memory) :
    Except ServiceError WriteReply × Memory :=
  let prepared := do
    let table ← memory.table request.tableName
    let key ← orKeyError (table.schema.exactKey request.key)
    let condition ← writeCondition request.names request.values request.condition
    return (table, key, condition)
  match prepared with
  | .error error => (.error error, memory)
  | .ok (table, key, condition) =>
      let (result, table) := table.deleteIf key (check condition)
      let memory := memory.setTable request.tableName table
      match result with
      | .error error => (.error error, memory)
      | .ok removed =>
          let size := (removed.map Item.storedSize).getD 0
          (.ok ⟨report request.capacity (.ofWrite request.tableName size)⟩, memory)

/-! ## Pages -/

/-- The items of which a condition holds. -/
def matching (condition : Condition) : List Item → Except ServiceError (List Item)
  | [] => .ok []
  | item :: items => do
      let holds ← orInvalid "FilterExpression" (condition.holds item)
      let rest ← matching condition items
      return if holds then item :: rest else rest

/-- The items of a read that a filter keeps. -/
def keepItems
    (filter : Option Condition)
    (items : List Item) :
    Except ServiceError (List Item) :=
  match filter with
  | none => .ok items
  | some condition => matching condition items

/-- The count of some items in a reply. -/
def countOf (items : List Item) : Int :=
  if items.length ≤ largestInt32 then items.length else largestInt32

/-- The reply for what was read. -/
def pageReply
    (request : ScanRequest)
    (filter : Option Condition)
    (projection : Option (List Path))
    (result : ReadResult) :
    Except ServiceError PageReply := do
  let kept ← keepItems filter result.items
  let size := total (result.items.map Item.storedSize)
  return {
    items := if request.select = some .count then [] else kept.map (present projection)
    count := countOf kept
    scannedCount := countOf result.items
    lastKey := result.lastKey
    capacity := report request.capacity
      (.ofRead request.tableName size (request.consistent.getD false)) }

/-- Answer a query. -/
def query (request : QueryRequest) (memory : Memory) : Except ServiceError PageReply := do
  let table ← memory.table request.tableName
  let limit ← readLimit request.limit
  checkSelect request.select request.projection
  let text ← match request.keyCondition with
    | some text => pure text
    | none => .error (.validation ("Either the KeyConditions or KeyConditionExpression " ++
        "parameter must be specified in the request."))
  let (condition, scope) := (Scope.start request.names request.values).condition text
  let condition ← orInvalid "KeyConditionExpression" condition
  let (filter, scope) ← readCondition scope "FilterExpression" request.filter
  let (projection, scope) ← readProjection scope request.projection
  orInvalid "ExpressionAttributes" scope.finish
  let schema ← orKeyError (table.schemaFor request.index)
  match schema.selection condition with
  | .error fault => .error (.validation fault.message)
  | .ok selection =>
      let result ← orKeyError (table.read {
        index := request.index
        partition := some selection.partition
        sort := selection.sort
        forward := request.forward.getD true
        limit
        start := request.start })
      pageReply request.toScanRequest filter projection result

/-- Answer a scan. -/
def scan (request : ScanRequest) (memory : Memory) : Except ServiceError PageReply := do
  let table ← memory.table request.tableName
  let limit ← readLimit request.limit
  checkSelect request.select request.projection
  let (filter, scope) ←
    readCondition (.start request.names request.values) "FilterExpression" request.filter
  let (projection, scope) ← readProjection scope request.projection
  orInvalid "ExpressionAttributes" scope.finish
  let result ← orKeyError (table.read {
    index := request.index
    partition := none
    sort := none
    forward := true
    limit
    start := request.start })
  pageReply request filter projection result

/-- The service of tables in memory.  A page that is not the last holds an item,
so there is at most one page more than there are items. -/
def service : TableService Memory where
  get request memory := (get request memory, memory)
  put := put
  delete := delete
  query request memory := (query request memory, memory)
  scan request memory := (scan request memory, memory)
  pageBound memory := memory.totalCount + 1

end ItemTable.Memory
