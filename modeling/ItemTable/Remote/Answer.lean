import ItemTable.Remote.Failure
import ItemTable.Reply

/-!
# Answers of a remote service

An answer has an HTTP status and a body in JSON.  With a status of success the
body is the reply of the operation; it is read as a whole before the values in
it are looked at.  With any other status the body names the error.
-/

namespace ItemTable

open Json

/-- An answer of a remote service. -/
structure RemoteAnswer where
  status : Nat
  body : String

namespace RemoteAnswer

/-- Whether the status is one of success. -/
def isSuccess (answer : RemoteAnswer) : Bool :=
  200 ≤ answer.status && answer.status < 300

/-! ## Members of a reply -/

/-- Read the fields of an item. -/
def readFields (document : Raw) : Option (List (String × RemoteValue)) :=
  RemoteValue.ofFields? RemoteValue.maxLevels document

/-- Read the fields of an item that stands in an array or another object. -/
def readInnerFields (document : Raw) : Option (List (String × RemoteValue)) :=
  RemoteValue.ofFields? (RemoteValue.maxLevels - 1) document

/-- The units of a part of a table, which do not count further. -/
def unitsShape : Raw.Shape Unit :=
  Raw.Shape.pure ()
    |>.checking "CapacityUnits" Raw.real?
    |>.checking "ReadCapacityUnits" Raw.real?
    |>.checking "WriteCapacityUnits" Raw.real?

/-- The use of a vector index, which does not count further. -/
def vectorShape : Raw.Shape Unit :=
  Raw.Shape.pure () |>.checking "VectorSearchRequestBytes" Raw.real?

/-- The consumed capacity.  The table alone and its secondary indexes have units
of their own; a vector index counts bytes. -/
def capacityShape : Raw.Shape ConsumedCapacity :=
  ConsumedCapacity.mk
    <$> Raw.Shape.member "TableName" Raw.text?
    <*> Raw.Shape.member "CapacityUnits" Raw.real?
    <*> Raw.Shape.member "ReadCapacityUnits" Raw.real?
    <*> Raw.Shape.member "WriteCapacityUnits" Raw.real?
    |>.checking "Table" unitsShape.read?
    |>.checking "LocalSecondaryIndexes" (Raw.mapOf? unitsShape.read?)
    |>.checking "GlobalSecondaryIndexes" (Raw.mapOf? unitsShape.read?)
    |>.checking "VectorIndexes" (Raw.mapOf? vectorShape.read?)

/-- The member for consumed capacity. -/
def capacityMember : Raw.Shape (Option ConsumedCapacity) :=
  .member "ConsumedCapacity" capacityShape.read?

/-- The sizes of the items with one partition key, which do not count further. -/
def metricsShape : Raw.Shape Unit :=
  Raw.Shape.pure ()
    |>.checking "ItemCollectionKey" readInnerFields
    |>.checking "SizeEstimateRangeGB" (Raw.listOf? Raw.real?)

/-! ## Replies -/

/-- Why the body of an answer is no reply. -/
inductive Fault where
  /-- It does not have the form of one. -/
  | malformed
  /-- It holds a value of an unknown kind. -/
  | unknownKind
deriving DecidableEq

/-- The document of a body.  An empty body is an object without members. -/
def document? (answer : RemoteAnswer) : Option Raw :=
  if answer.body.isEmpty then some (.object []) else Raw.parse? answer.body

/-- The item with the fields. -/
def knownItem (fields : List (String × RemoteValue)) : Except Fault Item :=
  match RemoteValue.item? fields with
  | some item => .ok item
  | none => .error .unknownKind

/-- Read the body as an object of a shape. -/
def read {α : Type} (shape : Raw.Shape α) (answer : RemoteAnswer) : Except Fault α :=
  match answer.document?.bind shape.read? with
  | some result => .ok result
  | none => .error .malformed

/-- The members of the body of the reply to a request for an item. -/
def itemShape : Raw.Shape (Option (List (String × RemoteValue)) × Option ConsumedCapacity) :=
  Prod.mk
    <$> .member "Item" readFields
    <*> capacityMember

/-- Read the reply to a request for an item. -/
def readGetReply (answer : RemoteAnswer) : Except Fault GetReply := do
  let (fields, capacity) ← answer.read itemShape
  return { item := ← fields.mapM knownItem, capacity }

/-- The members of the body of the reply to a request to store or delete an item. -/
def writeShape : Raw.Shape (Option ConsumedCapacity) :=
  capacityMember
    |>.checking "Attributes" readFields
    |>.checking "ItemCollectionMetrics" metricsShape.read?

/-- Read the reply to a request to store or delete an item. -/
def readWriteReply (answer : RemoteAnswer) : Except Fault WriteReply := do
  return { capacity := ← answer.read writeShape }

/-- The body of the reply to a query or a scan. -/
structure PageBody where
  items : Option (List (List (String × RemoteValue)))
  count : Option Int
  scannedCount : Option Int
  lastKey : Option (List (String × RemoteValue))
  capacity : Option ConsumedCapacity

/-- The members of the body of the reply to a query or a scan. -/
def pageShape : Raw.Shape PageBody :=
  PageBody.mk
    <$> .member "Items" (Raw.listOf? readInnerFields)
    <*> .member "Count" Raw.int32?
    <*> .member "ScannedCount" Raw.int32?
    <*> .member "LastEvaluatedKey" readFields
    <*> capacityMember

/-- Read the reply to a query or a scan.  Counts that are missing are zero. -/
def readPageReply (answer : RemoteAnswer) : Except Fault PageReply := do
  let body ← answer.read pageShape
  return {
    items := ← (body.items.getD []).mapM knownItem
    count := body.count.getD 0
    scannedCount := body.scannedCount.getD 0
    lastKey := ← knownItem (body.lastKey.getD [])
    capacity := body.capacity }

/-! ## Outcomes -/

/-- The error that a body names, if it names one. -/
def error (operation : Operation) (answer : RemoteAnswer) : ServiceError :=
  ((RemoteFailure.read operation answer.body).elim ServiceError.unanswered
    RemoteFailure.error).withStatus answer.status

/-- The error for a body that is no reply. -/
def faultError (answer : RemoteAnswer) : Fault → ServiceError
  | .malformed => ServiceError.unanswered.withStatus answer.status
  | .unknownKind => .validation "unsupported attribute value in response: Unknown"

/-- The reply of an answer to an operation, or its error. -/
def reply
    {α : Type}
    (operation : Operation)
    (read : RemoteAnswer → Except Fault α)
    (answer : RemoteAnswer) :
    Except ServiceError α :=
  if answer.isSuccess then
    match read answer with
    | .ok reply => .ok reply
    | .error fault => .error (answer.faultError fault)
  else
    .error (answer.error operation)

end RemoteAnswer

end ItemTable
