import ItemTable.AttributeValue.Wire
import ItemTable.Number.Natural
import ItemTable.Text.Blank

/-!
# Consumed capacity

A call consumes capacity units by the bytes that it reads or writes, and reports
them when the request asks for it.  A unit is 4096 bytes read or 1024 bytes
written; every call takes one at least, and a read that need not be consistent
takes half of its units.
-/

namespace ItemTable

/-! ## Sizes in bytes -/

mutual

/-- The bytes that a value takes. -/
def AttributeValue.storedSize : AttributeValue → Nat
  | .string text | .number text => text.utf8ByteSize
  | .binary bytes => bytes.length
  | .stringSet texts | .numberSet texts => total (texts.map String.utf8ByteSize)
  | .binarySet members => total (members.map List.length)
  | .bool _ | .null _ => 1
  | .list items => 3 + AttributeValue.storedSizes items
  | .map fields =>
      3 + total (List.ofFn fun index =>
        1 + (fields.names.get index).utf8ByteSize + (fields.value index).storedSize)

/-- The bytes that the items of a list take. -/
def AttributeValue.storedSizes : List AttributeValue → Nat
  | [] => 0
  | item :: items => 1 + item.storedSize + AttributeValue.storedSizes items

end

/-- The bytes that an item takes. -/
def Item.storedSize (item : Item) : Nat :=
  total (item.toList.map fun (name, value) => name.utf8ByteSize + value.storedSize)

/-! ## Reports -/

/-- How much a request wants to know about the capacity it consumes. -/
inductive CapacityDetail where
  | indexes
  | total
  | none
deriving DecidableEq

namespace CapacityDetail

/-- The written form of a detail. -/
def name : CapacityDetail → String
  | indexes => "INDEXES"
  | total => "TOTAL"
  | none => "NONE"

/-- The detail with a written form. -/
def ofName? : String → Option CapacityDetail
  | "INDEXES" => some indexes
  | "TOTAL" => some total
  | "NONE" => some none
  | _ => .none

/-- The detail that a text means: blanks around it and the case of ASCII letters
do not count. -/
def ofText? (text : String) : Option CapacityDetail :=
  ofName? (String.ofList ((Text.trim text.toList).map Char.toUpper))

/-- Whether capacity is reported at all. -/
def isReported : CapacityDetail → Bool
  | none => false
  | _ => true

end CapacityDetail

/-- The capacity that a call consumed. -/
structure ConsumedCapacity where
  tableName : Option String
  units : Option Binary64
  readUnits : Option Binary64
  writeUnits : Option Binary64
deriving DecidableEq

namespace ConsumedCapacity

/-- The sum of two numbers of units, if there is one at all. -/
def addUnits : Option Binary64 → Option Binary64 → Option Binary64
  | none, none => none
  | left, right => some ((left.getD .zero).add (right.getD .zero))

/-- The capacity that two calls consumed, under the first table name. -/
def merge (left right : ConsumedCapacity) : ConsumedCapacity where
  tableName := left.tableName.or right.tableName
  units := addUnits left.units right.units
  readUnits := addUnits left.readUnits right.readUnits
  writeUnits := addUnits left.writeUnits right.writeUnits

/-- The units of so many bytes, one at least. -/
def unitCount (bytes bytesPerUnit : Nat) : Nat :=
  max 1 ((bytes + bytesPerUnit - 1) / bytesPerUnit)

/-- The capacity that reading so many bytes consumes. -/
def ofRead (tableName : String) (bytes : Nat) (consistent : Bool) : ConsumedCapacity :=
  let units := Binary64.ofRatio false (unitCount bytes 4096) (if consistent then 1 else 2)
  { tableName := some tableName, units := some units, readUnits := some units
    writeUnits := none }

/-- The capacity that writing so many bytes consumes. -/
def ofWrite (tableName : String) (bytes : Nat) : ConsumedCapacity :=
  let units := Binary64.ofRatio false (unitCount bytes 1024) 1
  { tableName := some tableName, units := some units, readUnits := none
    writeUnits := some units }

/-! ## On the wire -/

open Json

/-- Units on the wire. -/
def unitsToJson (units : Binary64) : Json :=
  .number (.real units)

/-- The wire form of a report. -/
def toJson (capacity : ConsumedCapacity) : Json :=
  .object
    (optionalMember "TableName" .string capacity.tableName ++
      optionalMember "CapacityUnits" unitsToJson capacity.units ++
      optionalMember "ReadCapacityUnits" unitsToJson capacity.readUnits ++
      optionalMember "WriteCapacityUnits" unitsToJson capacity.writeUnits)

/-- The wire format of reports. -/
def record : Record ConsumedCapacity :=
  ConsumedCapacity.mk
    <$> .optional "TableName" Decoder.string
    <*> .optional "CapacityUnits" Decoder.real
    <*> .optional "ReadCapacityUnits" Decoder.real
    <*> .optional "WriteCapacityUnits" Decoder.real

end ConsumedCapacity

end ItemTable
