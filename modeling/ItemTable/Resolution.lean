import ItemTable.Condition.Basic

/-!
# Resolving paths

The value at a path is found by walking from an attribute of the item through
fields of maps and indexes of lists.  A path that leads nowhere has no value.
-/

namespace ItemTable

namespace AttributeValue

/-- The value that a path element leads to. -/
def step? (value : AttributeValue) : PathElement → Option AttributeValue
  | .attribute name => value.map? >>= fun fields => fields.find? name
  | .index position => value.list? >>= fun items => items[position]?

/-- The value that path elements lead to, one after the other. -/
def walk? (value : AttributeValue) (elements : List PathElement) : Option AttributeValue :=
  elements.foldlM step? value

/-- The size of a value: the bytes of a scalar, the members of a collection. -/
def size : AttributeValue → Nat
  | string text | number text => text.utf8ByteSize
  | binary bytes => bytes.length
  | stringSet texts | numberSet texts => texts.length
  | binarySet members => members.length
  | bool _ | null _ => 1
  | list items => items.length
  | map fields => fields.size

end AttributeValue

/-- The value at a path of an item. -/
def Item.resolve? (item : Item) (path : Path) : Option AttributeValue :=
  match path.elements with
  | .attribute name :: elements => item.find? name >>= fun value => value.walk? elements
  | _ => none

/-- The value of an operand: the size of a value is a number. -/
def Operand.resolve? (operand : Operand) (item : Item) : Option AttributeValue :=
  match operand with
  | path place => item.resolve? place
  | value literal => some literal
  | size place => (item.resolve? place).map fun value => .ofNat value.size

end ItemTable
