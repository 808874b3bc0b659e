import ItemTable.Capacity
import ItemTable.Operation

/-!
# Requests

What a table service is asked.  A request carries the texts of its expressions
and says what their placeholders stand for.  Members that say nothing are left
out on the wire.
-/

namespace ItemTable

open Json

/-- What a read returns of the items that it finds. -/
inductive Select where
  | allAttributes
  /-- All attributes that the index has. -/
  | allProjectedAttributes
  /-- The attributes of the projection. -/
  | specificAttributes
  /-- Only how many items there are. -/
  | count
deriving DecidableEq

namespace Select

/-- The written form of a selection. -/
def name : Select → String
  | allAttributes => "ALL_ATTRIBUTES"
  | allProjectedAttributes => "ALL_PROJECTED_ATTRIBUTES"
  | specificAttributes => "SPECIFIC_ATTRIBUTES"
  | count => "COUNT"

/-- The selection with a written form. -/
def ofName? : String → Option Select
  | "ALL_ATTRIBUTES" => some allAttributes
  | "ALL_PROJECTED_ATTRIBUTES" => some allProjectedAttributes
  | "SPECIFIC_ATTRIBUTES" => some specificAttributes
  | "COUNT" => some count
  | _ => none

end Select

/-! ## Kinds of requests -/

/-- A request for one item. -/
structure GetRequest where
  tableName : String
  key : Item
  consistent : Option Bool
  projection : Option String
  names : NameMap String
  capacity : Option CapacityDetail
deriving DecidableEq

/-- A request to store an item. -/
structure PutRequest where
  tableName : String
  item : Item
  condition : Option String
  names : NameMap String
  values : NameMap AttributeValue
  capacity : Option CapacityDetail
deriving DecidableEq

/-- A request to delete an item. -/
structure DeleteRequest where
  tableName : String
  key : Item
  condition : Option String
  names : NameMap String
  values : NameMap AttributeValue
  capacity : Option CapacityDetail
deriving DecidableEq

/-- A request for a page of the items of a table or an index. -/
structure ScanRequest where
  tableName : String
  index : Option String
  filter : Option String
  projection : Option String
  names : NameMap String
  values : NameMap AttributeValue
  limit : Option Int
  /-- The key to go on from; empty for the first page. -/
  start : Item
  select : Option Select
  consistent : Option Bool
  capacity : Option CapacityDetail
deriving DecidableEq

/-- A request for a page of one partition, in the order of the sort keys. -/
structure QueryRequest extends ScanRequest where
  keyCondition : Option String
  forward : Option Bool
deriving DecidableEq

/-- A request of any kind. -/
inductive Request where
  | get (request : GetRequest)
  | put (request : PutRequest)
  | delete (request : DeleteRequest)
  | query (request : QueryRequest)
  | scan (request : ScanRequest)
deriving DecidableEq

/-- The operation that a request asks for. -/
def Request.operation : Request → Operation
  | get _ => .getItem
  | put _ => .putItem
  | delete _ => .deleteItem
  | query _ => .query
  | scan _ => .scan

/-! ## Writing -/

namespace Request

/-- The meanings of name placeholders on the wire. -/
def namesToJson (names : NameMap String) : Json :=
  .object (names.toList.map fun (placeholder, name) => (placeholder, .string name))

/-- The member for the meanings of name placeholders. -/
def namesMember (names : NameMap String) : List (String × Json) :=
  if names.isEmpty then [] else [("ExpressionAttributeNames", namesToJson names)]

/-- A member for an item or the meanings of literal placeholders. -/
def itemMember (name : String) (item : Item) : List (String × Json) :=
  if item.isEmpty then [] else [(name, item.toJson)]

/-- The member for an optional text. -/
def textMember (name : String) (text : Option String) : List (String × Json) :=
  optionalMember name .string text

/-- The member for a flag. -/
def flagMember (name : String) (flag : Option Bool) : List (String × Json) :=
  optionalMember name .bool flag

/-- The member for the detail of capacity reports. -/
def capacityMember (capacity : Option CapacityDetail) : List (String × Json) :=
  optionalMember "ReturnConsumedCapacity" (fun detail => .string detail.name) capacity

/-- The member for what a read returns. -/
def selectMember (select : Option Select) : List (String × Json) :=
  optionalMember "Select" (fun select => .string select.name) select

end Request

open Request

/-- The wire form of the request. -/
def GetRequest.toJson (request : GetRequest) : Json :=
  .object
    ([("TableName", .string request.tableName), ("Key", request.key.toJson)] ++
      flagMember "ConsistentRead" request.consistent ++
      textMember "ProjectionExpression" request.projection ++
      namesMember request.names ++
      capacityMember request.capacity)

/-- The wire form of the request. -/
def PutRequest.toJson (request : PutRequest) : Json :=
  .object
    ([("TableName", .string request.tableName), ("Item", request.item.toJson)] ++
      textMember "ConditionExpression" request.condition ++
      namesMember request.names ++
      itemMember "ExpressionAttributeValues" request.values ++
      capacityMember request.capacity)

/-- The wire form of the request. -/
def DeleteRequest.toJson (request : DeleteRequest) : Json :=
  .object
    ([("TableName", .string request.tableName), ("Key", request.key.toJson)] ++
      textMember "ConditionExpression" request.condition ++
      namesMember request.names ++
      itemMember "ExpressionAttributeValues" request.values ++
      capacityMember request.capacity)

/-- The members that queries and scans share, after the names of the table and
the index. -/
def ScanRequest.members (request : ScanRequest) : List (String × Json) :=
  textMember "FilterExpression" request.filter ++
    textMember "ProjectionExpression" request.projection ++
    namesMember request.names ++
    itemMember "ExpressionAttributeValues" request.values ++
    optionalMember "Limit" .ofInt request.limit ++
    itemMember "ExclusiveStartKey" request.start ++
    selectMember request.select ++
    flagMember "ConsistentRead" request.consistent ++
    capacityMember request.capacity

/-- The wire form of the request. -/
def ScanRequest.toJson (request : ScanRequest) : Json :=
  .object
    ([("TableName", .string request.tableName)] ++
      textMember "IndexName" request.index ++
      request.members)

/-- The wire form of the request. -/
def QueryRequest.toJson (request : QueryRequest) : Json :=
  .object
    ([("TableName", .string request.tableName)] ++
      textMember "IndexName" request.index ++
      textMember "KeyConditionExpression" request.keyCondition ++
      flagMember "ScanIndexForward" request.forward ++
      request.toScanRequest.members)

/-- The wire form of a request of any kind. -/
def Request.toJson : Request → Json
  | get request => request.toJson
  | put request => request.toJson
  | delete request => request.toJson
  | query request => request.toJson
  | scan request => request.toJson

/-! ## Reading -/

namespace Request

/-- The field for the name of the table. -/
def tableField : Record String :=
  .required "TableName" Decoder.string

/-- An optional text. -/
def textField (name : String) : Record (Option String) :=
  .optional name Decoder.string

/-- An optional flag. -/
def flagField (name : String) : Record (Option Bool) :=
  .optional name Decoder.bool

/-- The field for the meanings of name placeholders. -/
def namesField : Record (NameMap String) :=
  .defaulted "ExpressionAttributeNames" ∅ (Decoder.names Decoder.string)

/-- The field for the meanings of literal placeholders. -/
def valuesField : Record (NameMap AttributeValue) :=
  .defaulted "ExpressionAttributeValues" ∅ Item.decode

/-- The field for the key to go on from. -/
def startField : Record Item :=
  .defaulted "ExclusiveStartKey" ∅ Item.decode

/-- The field for the most items of a page. -/
def limitField : Record (Option Int) :=
  .optional "Limit" Decoder.int32

/-- The field for what a read returns. -/
def selectField : Record (Option Select) :=
  .optional "Select" (Decoder.choice Select.ofName?)

/-- The field for the detail of capacity reports. -/
def capacityField : Record (Option CapacityDetail) :=
  .optional "ReturnConsumedCapacity" (Decoder.choice CapacityDetail.ofName?)

end Request

/-- The wire format of the request. -/
def GetRequest.record : Record GetRequest :=
  GetRequest.mk
    <$> tableField
    <*> .required "Key" Item.decode
    <*> flagField "ConsistentRead"
    <*> textField "ProjectionExpression"
    <*> namesField
    <*> capacityField

/-- The wire format of the request. -/
def PutRequest.record : Record PutRequest :=
  PutRequest.mk
    <$> tableField
    <*> .required "Item" Item.decode
    <*> textField "ConditionExpression"
    <*> namesField
    <*> valuesField
    <*> capacityField

/-- The wire format of the request. -/
def DeleteRequest.record : Record DeleteRequest :=
  DeleteRequest.mk
    <$> tableField
    <*> .required "Key" Item.decode
    <*> textField "ConditionExpression"
    <*> namesField
    <*> valuesField
    <*> capacityField

/-- The wire format of the request. -/
def ScanRequest.record : Record ScanRequest :=
  ScanRequest.mk
    <$> tableField
    <*> textField "IndexName"
    <*> textField "FilterExpression"
    <*> textField "ProjectionExpression"
    <*> namesField
    <*> valuesField
    <*> limitField
    <*> startField
    <*> selectField
    <*> flagField "ConsistentRead"
    <*> capacityField

/-- The wire format of the request. -/
def QueryRequest.record : Record QueryRequest :=
  ofFields
    <$> tableField
    <*> textField "IndexName"
    <*> textField "KeyConditionExpression"
    <*> textField "FilterExpression"
    <*> textField "ProjectionExpression"
    <*> namesField
    <*> valuesField
    <*> flagField "ScanIndexForward"
    <*> limitField
    <*> startField
    <*> selectField
    <*> flagField "ConsistentRead"
    <*> capacityField
where
  ofFields tableName index keyCondition filter projection names values forward limit start
      select consistent capacity :=
    { tableName, index, keyCondition, filter, projection, names, values, forward, limit
      start, select, consistent, capacity }

end ItemTable
