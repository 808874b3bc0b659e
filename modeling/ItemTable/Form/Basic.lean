import ItemTable.AttributeValue.Wire
import ItemTable.Path

/-!
# Forms

Tools keep conditions, schemas and documents as JSON.  A form is easier to write
by hand than what goes over the wire: a member may be left out or null, and a
literal may be a plain string, boolean or integer.

This module reads the parts that all forms are made of.
-/

namespace ItemTable

namespace Json

mutual

/-- The number of arrays and objects inside each other, and one. -/
def height : Json → Nat
  | array items => heights items + 1
  | object members => memberHeights members + 1
  | _ => 1

/-- The greatest height of some items. -/
def heights : List Json → Nat
  | [] => 0
  | item :: items => max (height item) (heights items)

/-- The greatest height of some members. -/
def memberHeights : List (String × Json) → Nat
  | [] => 0
  | (_, value) :: members => max (height value) (memberHeights members)

end

/-- The member with a name. -/
def member? (form : Json) (name : String) : Option Json :=
  match form with
  | object members => members.lookup name
  | _ => none

/-- The member with a name, unless it is null. -/
def present? (form : Json) (name : String) : Option Json :=
  (form.member? name).filter fun
    | null => false
    | _ => true

/-- The text of a string. -/
def string? : Json → Option String
  | string text => some text
  | _ => none

/-- The truth value of a boolean. -/
def bool? : Json → Option Bool
  | bool value => some value
  | _ => none

/-- The natural number that a number is. -/
def nat? : Json → Option Nat
  | number (.integer (.ofNat value)) => some value
  | _ => none

/-- The items of an array, each read in the given way. -/
def listOf? {α : Type} (read : Json → Option α) : Json → Option (List α)
  | array items => items.mapM read
  | _ => none

/-- The members of an object, each read in the given way. -/
def namesOf? {α : Type} (read : Json → Option α) : Json → Option (NameMap α)
  | object members => do
      let entries ← members.mapM fun (name, value) => do return (name, ← read value)
      return .ofList entries
  | _ => none

/-- A member that has to be there, read in the given way. -/
def need? {α : Type} (form : Json) (name : String) (read : Json → Option α) : Option α :=
  form.present? name >>= read

/-- A member that may be missing, read in the given way. -/
def maybe? {α : Type} (form : Json) (name : String) (read : Json → Option α) :
    Option (Option α) :=
  match form.present? name with
  | none => some none
  | some value => (read value).map some

/-- A document, or a null where there is none. -/
def orNull {α : Type} (write : α → Json) : Option α → Json
  | .some value => write value
  | .none => null

/-- The form of a map of texts. -/
def ofTexts (texts : NameMap String) : Json :=
  object (texts.toList.map fun (name, text) => (name, string text))

end Json

/-- Read a literal: the wire form of a value, or a plain document. -/
def AttributeValue.ofForm? : Json → Option AttributeValue
  | .string text => some (.string text)
  | .bool value => some (.bool value)
  | .number (.integer value) => some (.ofInt value)
  | form => (Json.Decoder.ofJson AttributeValue.decode form).toOption

/-- Read an item. -/
def Item.ofForm? : Json → Option Item :=
  Json.namesOf? AttributeValue.ofForm?

/-- Read an element of a path. -/
def PathElement.ofForm? : Json → Option PathElement
  | .string name => some (.attribute name)
  | form => form.nat?.map .index

/-- Read a path: its text, or the list of its elements. -/
def Path.ofForm? : Json → Option Path
  | .string text => some (parse text)
  | form => (form.listOf? PathElement.ofForm?).map Path.mk

/-- The form of a path, the list of its elements. -/
def Path.toForm (path : Path) : Json :=
  .array (path.elements.map fun
    | .attribute name => .string name
    | .index position => .ofNat position)

end ItemTable
