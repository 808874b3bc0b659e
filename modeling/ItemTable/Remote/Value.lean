import ItemTable.AttributeValue.Basic
import ItemTable.Json.Raw.Shape

/-!
# Values in messages

The values that messages to and from a remote service hold.  They are those of
items, and in an answer there may be one of a kind that is not known.

An answer is read with tolerance where it is certain what is meant: a value may
have members that are null, and may name its type.  How deep the arrays and
objects of an answer may be nested is limited.
-/

namespace ItemTable

open Json

/-- A value in a message. -/
inductive RemoteValue where
  | string (text : String)
  | number (text : String)
  | binary (bytes : List UInt8)
  | stringSet (texts : List String)
  | numberSet (texts : List String)
  | binarySet (members : List (List UInt8))
  | bool (value : Bool)
  | null (value : Bool)
  | list (items : List RemoteValue)
  | map (fields : List (String × RemoteValue))
  /-- A value of another kind. -/
  | unknown

namespace RemoteValue

/-! ## Values of items -/

mutual

/-- The value in a message. -/
def ofValue : AttributeValue → RemoteValue
  | .string text => string text
  | .number text => number text
  | .binary bytes => binary bytes
  | .stringSet texts => stringSet texts
  | .numberSet texts => numberSet texts
  | .binarySet members => binarySet members
  | .bool value => bool value
  | .null value => null value
  | .list items => list (ofItems items)
  | .map fields =>
      map (List.ofFn fun index => (fields.names.get index, ofValue (fields.value index)))

/-- The values of a list in a message. -/
def ofItems : List AttributeValue → List RemoteValue
  | [] => []
  | item :: items => ofValue item :: ofItems items

end

/-- An item in a message. -/
def ofItem (item : Item) : List (String × RemoteValue) :=
  item.toList.map fun (name, value) => (name, ofValue value)

mutual

/-- The value of an item, if all kinds in it are known. -/
def value? : RemoteValue → Option AttributeValue
  | string text => some (.string text)
  | number text => some (.number text)
  | binary bytes => some (.binary bytes)
  | stringSet texts => some (.stringSet texts)
  | numberSet texts => some (.numberSet texts)
  | binarySet members => some (.binarySet members)
  | bool value => some (.bool value)
  | null value => some (.null value)
  | list items => (values? items).map .list
  | map fields => (entries? fields).map fun entries => .map (.ofList entries)
  | unknown => none

/-- The values of a list, if all kinds in it are known. -/
def values? : List RemoteValue → Option (List AttributeValue)
  | [] => some []
  | item :: items => do
      let value ← value? item
      return value :: (← values? items)

/-- The entries of a map, if all kinds in it are known. -/
def entries? : List (String × RemoteValue) → Option (List (String × AttributeValue))
  | [] => some []
  | (name, field) :: fields => do
      let value ← value? field
      return (name, value) :: (← entries? fields)

end

/-- The item of a message, if all kinds in it are known. -/
def item? (fields : List (String × RemoteValue)) : Option Item :=
  (entries? fields).map .ofList

/-! ## Writing -/

/-- The object with one member for the kind of a value. -/
def tagged (kind : String) (payload : Json) : Json :=
  .object [(kind, payload)]

/-- Bytes in a message. -/
def blob (bytes : List UInt8) : Json :=
  .string (String.ofList (Base64.encode bytes))

mutual

/-- The written form of a value.  One of an unknown kind is never written. -/
def toJson : RemoteValue → Json
  | string text => tagged "S" (.string text)
  | number text => tagged "N" (.string text)
  | binary bytes => tagged "B" (blob bytes)
  | stringSet texts => tagged "SS" (.array (texts.map .string))
  | numberSet texts => tagged "NS" (.array (texts.map .string))
  | binarySet members => tagged "BS" (.array (members.map blob))
  | bool value => tagged "BOOL" (.bool value)
  | null value => tagged "NULL" (.bool value)
  | list items => tagged "L" (.array (itemsToJson items))
  | map fields => tagged "M" (.object (fieldsToJson fields))
  | unknown => .null

/-- The written forms of the values of a list. -/
def itemsToJson : List RemoteValue → List Json
  | [] => []
  | item :: items => toJson item :: itemsToJson items

/-- The written forms of the entries of a map. -/
def fieldsToJson : List (String × RemoteValue) → List (String × Json)
  | [] => []
  | (name, field) :: fields => (name, toJson field) :: fieldsToJson fields

end

/-! ## Reading -/

/-- How many arrays and objects may be nested in the object of an answer, which
has 128 levels with itself. -/
def maxLevels : Nat :=
  127

/-- The kind of a value, and what stands under it.  Of the members of its object
only this one may be there: nulls are not, and the name of a type is passed
over. -/
def variant? : Raw → Option (String × Raw)
  | .object members => do
      let present ← (Raw.object (members.filter fun (_, payload) => !payload.isNull)).members?
      let (types, variants) := present.partition fun (name, _) => name == "__type"
      guard (types.all fun (_, type) => type.isPassable)
      match variants with
      | [variant] => some variant
      | _ => none
  | _ => none

/-- Read the members of a set, if there is room for an array. -/
def setOf {α : Type} (room : Bool) (read : Raw → Option α) (payload : Raw) : Option (List α) :=
  if room then payload.listOf? read else none

/-- Read what stands under a kind that holds no other values, with or without
room for an array. -/
def plain? (room : Bool) (kind : String) (payload : Raw) : Option RemoteValue :=
  match kind with
  | "S" => payload.text?.map string
  | "N" => payload.text?.map number
  | "B" => payload.bytes?.map binary
  | "SS" => (setOf room Raw.text? payload).map stringSet
  | "NS" => (setOf room Raw.text? payload).map numberSet
  | "BS" => (setOf room Raw.bytes? payload).map binarySet
  | "BOOL" => payload.bool?.map bool
  | "NULL" => payload.bool?.map null
  | _ => if payload.isPassable then some unknown else none

mutual

/-- Read a value that has so many levels. -/
def ofRaw? : Nat → Raw → Option RemoteValue
  | 0, _ => none
  | levels + 1, document => do
      let (kind, payload) ← variant? document
      match kind with
      | "L" => (ofItems? levels payload).map list
      | "M" => (ofFields? levels payload).map map
      | kind => plain? (0 < levels) kind payload

/-- Read a list that has so many levels. -/
def ofItems? : Nat → Raw → Option (List RemoteValue)
  | 0, _ => none
  | levels + 1, document => document.listOf? (ofRaw? levels)

/-- Read the fields of a map or an item that has so many levels. -/
def ofFields? : Nat → Raw → Option (List (String × RemoteValue))
  | 0, _ => none
  | levels + 1, document => (document.mapOf? (ofRaw? levels)).map NameMap.toList

end

end RemoteValue

end ItemTable
