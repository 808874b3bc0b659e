import ItemTable.AttributeValue.Basic

/-!
# Hash feeds

A hash table of attribute values feeds each value to its hasher symbol by
symbol.  What it meets is a `Layout`: the value with the entries of every map
in the order in which they happen to be stored.  The feed of a layout lists the
entries of a map by name, so that it depends on the value alone.
-/

namespace ItemTable.AttributeValue

/-- A value as it is stored: the entries of a map come in any order. -/
inductive Layout where
  /-- A value that is neither a list nor a map. -/
  | leaf (value : AttributeValue)
  | list (items : List Layout)
  | map (entries : List (String × Layout))

/-- A piece of data that a hasher is fed with. -/
inductive Symbol where
  /-- The kind of a value, by its name. -/
  | kind (name : String)
  | text (content : String)
  | bytes (content : List UInt8)
  | bool (value : Bool)
  /-- The length of a sequence, before its members. -/
  | length (count : Nat)
deriving DecidableEq

mutual

/-- The layout that lists the entries of maps by name. -/
def layout : AttributeValue → Layout
  | list items => .list (layoutItems items)
  | map fields =>
      .map (List.ofFn fun index => (fields.names.get index, layout (fields.value index)))
  | value => .leaf value

/-- The layouts of the items of a list. -/
def layoutItems : List AttributeValue → List Layout
  | [] => []
  | item :: items => layout item :: layoutItems items

end

mutual

/-- The value that is stored. -/
def Layout.value : Layout → AttributeValue
  | .leaf value => value
  | .list items => AttributeValue.list (Layout.values items)
  | .map entries => AttributeValue.map (.ofList (Layout.fields entries))

/-- The values of the items of a stored list. -/
def Layout.values : List Layout → List AttributeValue
  | [] => []
  | item :: items => item.value :: Layout.values items

/-- The names of the entries of a stored map with their values. -/
def Layout.fields : List (String × Layout) → List (String × AttributeValue)
  | [] => []
  | (name, entry) :: entries => (name, entry.value) :: Layout.fields entries

end

/-- The feed of a value that is neither a list nor a map. -/
def leafFeed (value : AttributeValue) : List Symbol :=
  .kind value.kind :: match value with
    | string content | number content => [.text content]
    | binary content => [.bytes content]
    | stringSet texts | numberSet texts => .length texts.length :: texts.map .text
    | binarySet members => .length members.length :: members.map .bytes
    | bool value | null value => [.bool value]
    | list items => [.length items.length]
    | map _ => []

mutual

/-- The feed of a stored value. -/
def Layout.feed : Layout → List Symbol
  | .leaf value => leafFeed value
  | .list items => .kind "L" :: .length items.length :: Layout.feedItems items
  | .map entries =>
      .kind "M" :: ((Layout.feedEntries entries).mergeSort fun left right =>
        left.1 ≤ right.1).flatMap fun (name, feed) => .text name :: feed

/-- The feeds of the items of a stored list, one after the other. -/
def Layout.feedItems : List Layout → List Symbol
  | [] => []
  | item :: items => item.feed ++ Layout.feedItems items

/-- The names of the entries with the feeds of their values. -/
def Layout.feedEntries : List (String × Layout) → List (String × List Symbol)
  | [] => []
  | (name, entry) :: entries => (name, entry.feed) :: Layout.feedEntries entries

end

/-- The feed of a value. -/
def feed (value : AttributeValue) : List Symbol :=
  value.layout.feed

/-- Whether a hash table that holds `member` finds `value`: their feeds and the
values themselves have to agree. -/
def isFoundAs (value member : AttributeValue) : Bool :=
  value.feed == member.feed && value == member

end ItemTable.AttributeValue
