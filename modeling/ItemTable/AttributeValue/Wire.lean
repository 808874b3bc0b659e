import ItemTable.AttributeValue.Basic
import ItemTable.Base64
import ItemTable.Json.Record

/-!
# Attribute values on the wire

An attribute value is written as an object with one member, whose name is the
kind of the value.  Binary values are written as base64.

The decoder accepts exactly this format, at every depth.  It looks at the name
of the first member before the value behind it, and at the value before it
looks for a second member.  It reads all texts of a set of binaries before it
decodes the first one.
-/

namespace ItemTable.AttributeValue

open Json

/-! ## Writing -/

/-- Bytes on the wire. -/
def binaryToJson (bytes : List UInt8) : Json :=
  .string (String.ofList (Base64.encode bytes))

mutual

/-- The wire form of a value. -/
def toJson : AttributeValue → Json
  | string text => .object [("S", .string text)]
  | number text => .object [("N", .string text)]
  | binary bytes => .object [("B", binaryToJson bytes)]
  | stringSet texts => .object [("SS", .array (texts.map .string))]
  | numberSet texts => .object [("NS", .array (texts.map .string))]
  | binarySet members => .object [("BS", .array (members.map binaryToJson))]
  | bool value => .object [("BOOL", .bool value)]
  | null value => .object [("NULL", .bool value)]
  | list items => .object [("L", .array (itemsToJson items))]
  | map fields =>
      .object [("M", .object (List.ofFn fun index =>
        (fields.names.get index, toJson (fields.value index))))]

/-- The wire forms of the items of a list. -/
def itemsToJson : List AttributeValue → List Json
  | [] => []
  | item :: items => toJson item :: itemsToJson items

end

/-! ## Reading -/

/-- The bytes that a text stands for. -/
def decodeBytes (text : String) : Except DecodeError (List UInt8) :=
  match Base64.decode? text.toList with
  | some bytes => .ok bytes
  | none => .error .notBase64

/-- Bytes from the wire. -/
def decodeBinary : Decoder (List UInt8) := fun depth draft => do
  let text ← Decoder.string depth draft
  decodeBytes text

/-- Several binaries from the wire. -/
def decodeBinaries : Decoder (List (List UInt8)) := fun depth draft => do
  let texts ← Decoder.list Decoder.string depth draft
  texts.mapM decodeBytes

mutual

/-- Read a value. -/
def decode (depth : Nat) : Draft → Except DecodeError AttributeValue
  | .object members closed =>
      if depth ≤ 1 then
        .error .malformed
      else
        match members with
        | [] => .error (if closed then .notOneKind else .malformed)
        | (none, _) :: _ => .error .malformed
        | (some kind, payload) :: others => do
            let value ← decodePayload (depth - 1) kind payload
            match others with
            | [] => if closed then pure value else .error .malformed
            | (some _, _) :: _ => .error .notOneKind
            | (none, _) :: _ => .error .malformed
  | draft => .error draft.problem

/-- Read what stands under the name of a kind. -/
def decodePayload
    (depth : Nat)
    (kind : String)
    (payload : Draft) :
    Except DecodeError AttributeValue :=
  match kind with
  | "S" => do return string (← Decoder.string depth payload)
  | "N" => do return number (← Decoder.string depth payload)
  | "B" => do return binary (← decodeBinary depth payload)
  | "SS" => do return stringSet (← Decoder.list Decoder.string depth payload)
  | "NS" => do return numberSet (← Decoder.list Decoder.string depth payload)
  | "BS" => do return binarySet (← decodeBinaries depth payload)
  | "BOOL" => do return bool (← Decoder.bool depth payload)
  | "NULL" => do return null (← Decoder.bool depth payload)
  | "L" =>
      match payload with
      | .array items closed =>
          if depth ≤ 1 then
            .error .malformed
          else do
            let values ← decodeItems (depth - 1) items
            if closed then pure (list values) else .error .malformed
      | payload => .error payload.problem
  | "M" =>
      match payload with
      | .object members closed =>
          if depth ≤ 1 then
            .error .malformed
          else do
            let entries ← decodeMembers (depth - 1) members
            if closed then pure (map (.ofList entries)) else .error .malformed
      | payload => .error payload.problem
  | other => .error (.unknownKind other)

/-- Read the items of a list. -/
def decodeItems
    (depth : Nat) :
    List Draft → Except DecodeError (List AttributeValue)
  | [] => .ok []
  | item :: items => do
      let value ← decode depth item
      return value :: (← decodeItems depth items)

/-- Read the members of a map. -/
def decodeMembers
    (depth : Nat) :
    List (Option String × Draft) → Except DecodeError (List (String × AttributeValue))
  | [] => .ok []
  | (none, _) :: _ => .error .malformed
  | (some name, item) :: members => do
      let value ← decode depth item
      return (name, value) :: (← decodeMembers depth members)

end

end ItemTable.AttributeValue

namespace ItemTable.Item

open Json

/-- The wire form of an item. -/
def toJson (item : Item) : Json :=
  .object (item.toList.map fun (name, value) => (name, value.toJson))

/-- Read an item. -/
def decode : Decoder Item :=
  Decoder.names AttributeValue.decode

end ItemTable.Item
