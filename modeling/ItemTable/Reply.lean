import ItemTable.Capacity

/-!
# Replies

What a table service answers to the requests that it accepts.
-/

namespace ItemTable

open Json

/-- The reply to a request for one item. -/
structure GetReply where
  item : Option Item
  capacity : Option ConsumedCapacity
deriving DecidableEq

/-- The reply to a request to store or delete an item. -/
structure WriteReply where
  capacity : Option ConsumedCapacity
deriving DecidableEq

/-- The reply to a query or a scan. -/
structure PageReply where
  items : List Item
  /-- How many items were found. -/
  count : Int
  /-- How many items were looked at. -/
  scannedCount : Int
  /-- The key to go on from; empty if there is nothing more. -/
  lastKey : Item
  capacity : Option ConsumedCapacity
deriving DecidableEq

instance : Inhabited GetReply := ⟨⟨none, none⟩⟩

instance : Inhabited WriteReply := ⟨⟨none⟩⟩

instance : Inhabited PageReply := ⟨⟨[], 0, 0, ∅, none⟩⟩

/-! ## On the wire -/

/-- The member for consumed capacity. -/
def ConsumedCapacity.member (capacity : Option ConsumedCapacity) : List (String × Json) :=
  optionalMember "ConsumedCapacity" toJson capacity

/-- The field for consumed capacity. -/
def ConsumedCapacity.field : Record (Option ConsumedCapacity) :=
  .optional "ConsumedCapacity" record.decode

namespace GetReply

/-- The wire form of the reply. -/
def toJson (reply : GetReply) : Json :=
  .object (optionalMember "Item" Item.toJson reply.item ++ ConsumedCapacity.member reply.capacity)

/-- The wire format of the reply. -/
def record : Record GetReply :=
  GetReply.mk <$> .optional "Item" Item.decode <*> ConsumedCapacity.field

end GetReply

namespace WriteReply

/-- The wire form of the reply. -/
def toJson (reply : WriteReply) : Json :=
  .object (ConsumedCapacity.member reply.capacity)

/-- The wire format of the reply. -/
def record : Record WriteReply :=
  WriteReply.mk <$> ConsumedCapacity.field

end WriteReply

namespace PageReply

/-- The wire form of the reply. -/
def toJson (reply : PageReply) : Json :=
  .object
    ((if reply.items.isEmpty then [] else [("Items", .array (reply.items.map Item.toJson))]) ++
      [("Count", .ofInt reply.count), ("ScannedCount", .ofInt reply.scannedCount)] ++
      (if reply.lastKey.isEmpty then [] else [("LastEvaluatedKey", reply.lastKey.toJson)]) ++
      ConsumedCapacity.member reply.capacity)

/-- The wire format of the reply. -/
def record : Record PageReply :=
  PageReply.mk
    <$> .defaulted "Items" [] (Decoder.list Item.decode)
    <*> .required "Count" Decoder.int32
    <*> .required "ScannedCount" Decoder.int32
    <*> .defaulted "LastEvaluatedKey" ∅ Item.decode
    <*> ConsumedCapacity.field

end PageReply

end ItemTable
