import ItemTable.Remote.Value
import ItemTable.Request
import ItemTable.Text.Blank

/-!
# Calls of a remote service

A request travels as a call: the name of the operation and a body in JSON.  The
body has the members that the request sets; key and item are sent even when they
are empty, other maps are not.  The table that is named is the address of the
call, and a call without one never leaves.
-/

namespace ItemTable

/-- A call of a remote service. -/
structure RemoteCall where
  operation : Operation
  tableName : String
  body : Json

namespace RemoteCall

/-- The written form of the operation in a call. -/
def target (call : RemoteCall) : String :=
  "DynamoDB_20120810." ++ call.operation.name

/-- Whether the call has an address: the table has a name that is not blank. -/
def isAddressed (call : RemoteCall) : Bool :=
  !call.tableName.toList.all Text.isBlank

/-- The call of an operation on a table.  Members without a value are left out. -/
def ofMembers
    (operation : Operation)
    (tableName : String)
    (members : List (String × Option Json)) :
    RemoteCall where
  operation := operation
  tableName := tableName
  body := .object (("TableName", .string tableName) ::
    members.filterMap fun (name, value) => value.map fun value => (name, value))

/-! ## Members -/

/-- An item. -/
def item (item : Item) : Json :=
  .object (RemoteValue.fieldsToJson (RemoteValue.ofItem item))

/-- An item or the meanings of literal placeholders, if there are any. -/
def itemIfAny (fields : Item) : Option Json :=
  if fields.isEmpty then none else some (item fields)

/-- The meanings of name placeholders, if there are any. -/
def namesIfAny (names : NameMap String) : Option Json :=
  if names.isEmpty then
    none
  else
    some (.object ((names.map Json.string).toList))

/-- The detail of capacity reports. -/
def capacityDetail (detail : CapacityDetail) : Json :=
  .string detail.name

/-! ## Requests -/

/-- The call for a request for an item. -/
def ofGet (request : GetRequest) : RemoteCall :=
  ofMembers .getItem request.tableName [
    ("Key", some (item request.key)),
    ("ConsistentRead", request.consistent.map .bool),
    ("ReturnConsumedCapacity", request.capacity.map capacityDetail),
    ("ProjectionExpression", request.projection.map .string),
    ("ExpressionAttributeNames", namesIfAny request.names)]

/-- The call for a request to store an item. -/
def ofPut (request : PutRequest) : RemoteCall :=
  ofMembers .putItem request.tableName [
    ("Item", some (item request.item)),
    ("ReturnConsumedCapacity", request.capacity.map capacityDetail),
    ("ConditionExpression", request.condition.map .string),
    ("ExpressionAttributeNames", namesIfAny request.names),
    ("ExpressionAttributeValues", itemIfAny request.values)]

/-- The call for a request to delete an item. -/
def ofDelete (request : DeleteRequest) : RemoteCall :=
  ofMembers .deleteItem request.tableName [
    ("Key", some (item request.key)),
    ("ReturnConsumedCapacity", request.capacity.map capacityDetail),
    ("ConditionExpression", request.condition.map .string),
    ("ExpressionAttributeNames", namesIfAny request.names),
    ("ExpressionAttributeValues", itemIfAny request.values)]

/-- The members that queries and scans share. -/
def readMembers (request : ScanRequest) : List (String × Option Json) := [
  ("IndexName", request.index.map .string),
  ("Select", request.select.map fun select => .string select.name),
  ("Limit", request.limit.map .ofInt),
  ("ConsistentRead", request.consistent.map .bool),
  ("ExclusiveStartKey", itemIfAny request.start),
  ("ReturnConsumedCapacity", request.capacity.map capacityDetail),
  ("ProjectionExpression", request.projection.map .string),
  ("FilterExpression", request.filter.map .string),
  ("ExpressionAttributeNames", namesIfAny request.names),
  ("ExpressionAttributeValues", itemIfAny request.values)]

/-- The call for a scan. -/
def ofScan (request : ScanRequest) : RemoteCall :=
  ofMembers .scan request.tableName (readMembers request)

/-- The call for a query. -/
def ofQuery (request : QueryRequest) : RemoteCall :=
  ofMembers .query request.tableName (readMembers request.toScanRequest ++ [
    ("ScanIndexForward", request.forward.map .bool),
    ("KeyConditionExpression", request.keyCondition.map .string)])

end RemoteCall

end ItemTable
