import ItemTable.AttributeValue.Basic
import ItemTable.AttributeValue.Feed
import ItemTable.Number.Numeral

/-!
# Keys

A key schema names a partition key and perhaps a sort key, each with the kind
of its values.  A key value is a string, a number or a binary; keys without a
sort key have the placeholder `KeyValue.absent` in its place.

Key values are totally ordered: strings by code points, binaries by bytes, and
numbers as binary64 patterns, where a text that denotes no number counts as NaN
and the two zeros count as one.
-/

namespace ItemTable

/-- The kinds that key attributes may have. -/
inductive KeyKind where
  | string
  | number
  | binary
deriving DecidableEq

/-- The name of a kind. -/
def KeyKind.name : KeyKind → String
  | string => "S"
  | number => "N"
  | binary => "B"

/-- The kind with a name. -/
def KeyKind.ofName? : String → Option KeyKind
  | "S" => some .string
  | "N" => some .number
  | "B" => some .binary
  | _ => none

/-- The part that an attribute plays in a key. -/
inductive KeyRole where
  | partition
  | sort
deriving DecidableEq

/-- The name of a role. -/
def KeyRole.name : KeyRole → String
  | partition => "HASH"
  | sort => "RANGE"

/-- The role with a name. -/
def KeyRole.ofName? : String → Option KeyRole
  | "HASH" => some .partition
  | "RANGE" => some .sort
  | _ => none

/-! ## Key values -/

/-- The value of a key attribute. -/
inductive KeyValue where
  | string (text : String)
  /-- A number, as the text that denotes it. -/
  | number (text : String)
  | binary (bytes : List UInt8)
  /-- What stands for the sort key of a key without one. -/
  | absent

namespace KeyValue

/-- The pattern by which the text of a number is ordered. -/
def numeric (text : String) : Binary64 :=
  ((Binary64.ofText? text).getD (.nan false)).unsignedZero

/-- The place of a kind of key values among the others. -/
def kindRank : KeyValue → Nat
  | string _ => 0
  | number _ => 1
  | binary _ => 2
  | absent => 3

/-- The order of key values. -/
def order (left right : KeyValue) : Ordering :=
  match left, right with
  | string left, string right => compare left right
  | number left, number right => compare (numeric left).rank (numeric right).rank
  | binary left, binary right => compare left right
  | left, right => compare left.kindRank right.kindRank

instance : Ord KeyValue := ⟨order⟩

/-- What a hash table feeds to its hasher for a key value. -/
def feed : KeyValue → List AttributeValue.Symbol
  | string text => [.kind "S", .text text]
  | number text =>
      let pattern := numeric text
      [.kind "N", .bool pattern.negative, .length pattern.magnitude]
  | binary bytes => [.kind "B", .bytes bytes]
  | absent => [.kind ""]

/-- Whether a hash table that holds `member` finds `value`: their feeds have to
agree and the order must not tell them apart. -/
def isFoundAs (value member : KeyValue) : Bool :=
  value.feed == member.feed && (value.order member).isEq

/-- The attribute value of a key value. -/
def value? : KeyValue → Option AttributeValue
  | string text => some (.string text)
  | number text => some (.number text)
  | binary bytes => some (.binary bytes)
  | absent => none

/-- The key value of an attribute value of the given kind. -/
def ofValue? : KeyKind → AttributeValue → Option KeyValue
  | .string, .string text => some (string text)
  | .number, .number text => some (number text)
  | .binary, .binary bytes => some (binary bytes)
  | _, _ => none

end KeyValue

/-! ## Schemas -/

/-- Why an item has no key, or a table no index. -/
inductive KeyError where
  | missing (name : String)
  | wrongKind (name : String) (expected : KeyKind) (actual : String)
  /-- A key has other attributes than the schema, or is no key of the index. -/
  | mismatch
  | unknownIndex (index : String)
deriving DecidableEq

/-- The explanation of the error. -/
def KeyError.message : KeyError → String
  | missing name =>
      "One of the required keys was not given a value: " ++ name
  | wrongKind name expected actual =>
      "Type mismatch for key " ++ name ++ ": expected " ++ expected.name ++
        ", got " ++ actual
  | mismatch => "The provided key element does not match the schema"
  | unknownIndex index => "The table does not have the specified index: " ++ index

/-- A key attribute with the kind of its values. -/
structure KeyAttribute where
  name : String
  kind : KeyKind
deriving DecidableEq

/-- The key value of an attribute, if the value has its kind. -/
def KeyAttribute.keyValue
    (member : KeyAttribute)
    (value : AttributeValue) :
    Except KeyError KeyValue :=
  match KeyValue.ofValue? member.kind value with
  | some key => .ok key
  | none => .error (.wrongKind member.name member.kind value.kind)

/-- The key value that an item has for an attribute. -/
def KeyAttribute.ofItem
    (member : KeyAttribute)
    (item : Item) :
    Except KeyError KeyValue :=
  match item.find? member.name with
  | some value => member.keyValue value
  | none => .error (.missing member.name)

/-- The key attributes of a table or an index. -/
structure KeySchema where
  partition : KeyAttribute
  sort : Option KeyAttribute
deriving DecidableEq

/-- The key of an item. -/
structure PrimaryKey where
  partition : KeyValue
  sort : KeyValue

namespace KeySchema

/-- The key attributes, the partition key first. -/
def attributes (schema : KeySchema) : List KeyAttribute :=
  schema.partition :: schema.sort.toList

/-- Whether a name is that of a key attribute. -/
def isKey (schema : KeySchema) (name : String) : Bool :=
  schema.attributes.any fun member => member.name == name

/-- The key of an item. -/
def primaryKey (schema : KeySchema) (item : Item) : Except KeyError PrimaryKey := do
  let partition ← schema.partition.ofItem item
  match schema.sort with
  | some member => return ⟨partition, ← member.ofItem item⟩
  | none => return ⟨partition, .absent⟩

/-- The key that an item is, which has no other attributes. -/
def exactKey (schema : KeySchema) (key : Item) : Except KeyError PrimaryKey :=
  if key.size = schema.attributes.length then
    schema.primaryKey key
  else
    .error .mismatch

/-- Copy the key attributes of an item into another. -/
def copyKey (schema : KeySchema) (item target : Item) : Item :=
  schema.attributes.foldl
    (fun target member =>
      match item.find? member.name with
      | some value => target.insert member.name value
      | none => target)
    target

end KeySchema

/-! ## Conditions on sort keys -/

/-- What a query asks of the sort key. -/
inductive SortCondition where
  | equal (value : KeyValue)
  | less (value : KeyValue)
  | lessOrEqual (value : KeyValue)
  | greater (value : KeyValue)
  | greaterOrEqual (value : KeyValue)
  /-- Both ends are included. -/
  | between (low high : KeyValue)
  /-- Strings and binaries only. -/
  | beginsWith (start : KeyValue)

/-- Whether a key value satisfies the condition. -/
def SortCondition.holds : SortCondition → KeyValue → Bool
  | equal value, key => (key.order value).isEq
  | less value, key => (key.order value).isLT
  | lessOrEqual value, key => (key.order value).isLE
  | greater value, key => (key.order value).isGT
  | greaterOrEqual value, key => (key.order value).isGE
  | between low high, key => (low.order key).isLE && (key.order high).isLE
  | beginsWith (.string start), .string text => start.toList.isPrefixOf text.toList
  | beginsWith (.binary start), .binary bytes => start.isPrefixOf bytes
  | beginsWith _, _ => false

end ItemTable
