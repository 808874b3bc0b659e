import ItemTable.Json.Draft
import ItemTable.NameMap
import ItemTable.Number.Natural

/-!
# Decoding

A `Decoder` takes a draft apart and reports the first problem in reading order.
It is told how many levels of arrays and objects may still be opened, since a
document that is nested too deeply is refused.

A `Record` is the format of a structure: its fields in order, and how they make
up the value.  A record is written as an object, whose members may come in any
order, or as the array of its fields.
-/

namespace ItemTable.Json

/-- Why a document is not the value that it should be. -/
inductive DecodeError where
  /-- The text cannot be read: it is malformed or nested too deeply. -/
  | malformed
  /-- Some part has the wrong kind. -/
  | wrongKind
  /-- A number or a name is none of those that may stand there. -/
  | wrongValue
  /-- A field of a record is missing or stands there twice. -/
  | wrongFields
  /-- The text of a binary is no base64. -/
  | notBase64
  /-- An attribute value has no kind or more than one. -/
  | notOneKind
  /-- An attribute value names a kind that does not exist. -/
  | unknownKind (name : String)
deriving DecidableEq

/-- The problems that are explained are those of attribute values. -/
def DecodeError.message? : DecodeError → Option String
  | notOneKind => some "AttributeValue must have exactly one key"
  | unknownKind name =>
      some ("unknown field `" ++ name ++ "`, expected one of `S`, `N`, " ++
        "`B`, `SS`, `NS`, `BS`, `BOOL`, `NULL`, " ++
        "`L`, `M`")
  | _ => none

/-- What is reported of a part where one of another kind should stand.  A text or a number
is read before its kind counts, an array or an object is not. -/
def Draft.problem : Draft → DecodeError
  | cut | quoted none => .malformed
  | number (.real value) => if value.isFinite then .wrongKind else .malformed
  | _ => .wrongKind

/-- Read a draft in which so many levels may be opened. -/
abbrev Decoder (α : Type) := Nat → Draft → Except DecodeError α

/-- The levels of a text that may be open at once, and one. -/
def depthLimit : Nat :=
  128

namespace Decoder

variable {α : Type}

/-- A quoted text. -/
def string : Decoder String
  | _, .quoted (some content) => .ok content
  | _, draft => .error draft.problem

/-- A truth value. -/
def bool : Decoder Bool
  | _, .bool value => .ok value
  | _, draft => .error draft.problem

/-- An integer of 32 bits, written without fraction and exponent. -/
def int32 : Decoder Int
  | _, .number (.integer value) =>
      if isInt32 value then .ok value else .error .wrongValue
  | _, draft => .error draft.problem

/-- A finite binary64 number. -/
def real : Decoder Binary64
  | _, .number (.integer value) => .ok (.ofInt value)
  | _, .number (.real value) => if value.isFinite then .ok value else .error .malformed
  | _, draft => .error draft.problem

/-- A null. -/
def null : Decoder Unit
  | _, .null => .ok ()
  | _, draft => .error draft.problem

/-- One of some names, on its own or as the name of an empty member. -/
def choice (ofName? : String → Option α) : Decoder α
  | _, .quoted (some name) => found (ofName? name)
  | depth, .object members closed =>
      if depth ≤ 1 then
        .error .malformed
      else
        match members with
        | (some name, payload) :: others => do
            let value ← found (ofName? name)
            null (depth - 1) payload
            if closed && others.isEmpty then pure value else .error .malformed
        | _ => .error .malformed
  | _, _ => .error .malformed
where
  found : Option α → Except DecodeError α
    | some value => .ok value
    | none => .error .wrongValue

/-- The items of an array, in order. -/
def list (item : Decoder α) : Decoder (List α)
  | depth, .array items closed =>
      if depth ≤ 1 then
        .error .malformed
      else do
        let values ← items.mapM (item (depth - 1))
        if closed then pure values else .error .malformed
  | _, draft => .error draft.problem

/-- The members of an object; of members with one name the last counts. -/
def names (member : Decoder α) : Decoder (NameMap α)
  | depth, .object members closed =>
      if depth ≤ 1 then
        .error .malformed
      else do
        let entries ← members.mapM fun (name, value) =>
          match name with
          | none => .error .malformed
          | some name => do pure (name, ← member (depth - 1) value)
        if closed then pure (.ofList entries) else .error .malformed
  | _, draft => .error draft.problem

/-- Read a text that holds one document. -/
def ofText (decoder : Decoder α) (text : String) : Except DecodeError α :=
  match Draft.read text with
  | (draft, ended) => do
      let value ← decoder depthLimit draft
      if ended then pure value else .error .malformed

/-- Read a document. -/
def ofJson (decoder : Decoder α) (document : Json) : Except DecodeError α :=
  decoder depthLimit (.ofJson document)

end Decoder

/-! ## Records -/

/-- How a field may be missing. -/
inductive Presence where
  /-- It may not. -/
  | required
  /-- As a null, or among the members of an object altogether. -/
  | optional
  /-- Altogether; a null is no value of it. -/
  | defaulted
deriving DecidableEq

/-- A field of a record. -/
structure Field where
  name : String
  presence : Presence
  /-- Whether a draft is a value of the field. -/
  accepts : Decoder Unit

/-- The format of a structure. -/
structure Record (α : Type) where
  fields : List Field
  /-- The value that fields found make up. -/
  build : Nat → List (String × Draft) → Except DecodeError α

namespace Record

variable {α β : Type}

/-- The record without fields. -/
def pure (value : α) : Record α where
  fields := []
  build _ _ := .ok value

/-- The fields of both records, the value of the second given to the first. -/
def apply (first : Record (α → β)) (second : Record α) : Record β where
  fields := first.fields ++ second.fields
  build depth found := do
    let make ← first.build depth found
    let value ← second.build depth found
    return make value

instance : Pure Record := ⟨pure⟩

instance : Functor Record where
  map change record := apply (pure change) record

instance : Seq Record := ⟨fun first second => apply first (second ())⟩

/-- A field that has to be there. -/
def required (name : String) (decoder : Decoder α) : Record α where
  fields := [⟨name, .required, fun depth value => do discard (decoder depth value)⟩]
  build depth found :=
    match found.lookup name with
    | none => .error .wrongFields
    | some value => decoder depth value

/-- The value of an optional field: a null is none. -/
def orNull (decoder : Decoder α) : Decoder (Option α)
  | _, .null => .ok none
  | depth, value => do return some (← decoder depth value)

/-- A field that may be missing or null. -/
def optional (name : String) (decoder : Decoder α) : Record (Option α) where
  fields := [⟨name, .optional, fun depth value => do discard (orNull decoder depth value)⟩]
  build depth found :=
    match found.lookup name with
    | none => .ok none
    | some value => orNull decoder depth value

/-- A field that may be missing and then has the given value. -/
def defaulted (name : String) (missing : α) (decoder : Decoder α) : Record α where
  fields := [⟨name, .defaulted, fun depth value => do discard (decoder depth value)⟩]
  build depth found :=
    match found.lookup name with
    | none => .ok missing
    | some value => decoder depth value

/-- Read the members of an object.  Members that are no field are passed over,
and a field may stand there once. -/
def readMembers
    (fields : List Field)
    (depth : Nat) :
    List (String × Draft) → List (Option String × Draft) →
      Except DecodeError (List (String × Draft))
  | found, [] => .ok found
  | _, (none, _) :: _ => .error .malformed
  | found, (some name, value) :: members =>
      match fields.find? fun field => field.name == name with
      | none =>
          if value.isWhole then readMembers fields depth found members else .error .malformed
      | some field =>
          if (found.lookup name).isSome then
            .error .wrongFields
          else do
            field.accepts depth value
            readMembers fields depth (found ++ [(name, value)]) members

/-- Read the items of an array as the fields in order.  Only fields with a
default may be missing at the end of an array that is closed. -/
def readItems
    (depth : Nat)
    (closed : Bool) :
    List Field → List Draft → Except DecodeError (List (String × Draft))
  | [], [] => .ok []
  | [], _ :: _ => .error .malformed
  | field :: fields, [] =>
      if field.presence = .defaulted then
        readItems depth closed fields []
      else
        .error (if closed then .wrongFields else .malformed)
  | field :: fields, value :: items => do
      field.accepts depth value
      return (field.name, value) :: (← readItems depth closed fields items)

/-- Read a record. -/
def decode (record : Record α) : Decoder α
  | depth, .object members closed =>
      if depth ≤ 1 then
        .error .malformed
      else do
        let found ← readMembers record.fields (depth - 1) [] members
        if closed then record.build (depth - 1) found else .error .malformed
  | depth, .array items closed =>
      if depth ≤ 1 then
        .error .malformed
      else do
        let found ← readItems (depth - 1) closed record.fields items
        if closed then record.build (depth - 1) found else .error .malformed
  | _, draft => .error draft.problem

end Record

end ItemTable.Json
