import ItemTable.Storage.Basic

/-!
# Reads

A read lists the items of a table or an index, of one partition or of all of
them, in the order of their positions.  The position of an item is made of its
keys, so the order in which the partitions lie does not matter.  Items that lack
a key of an index do not belong to the index.

A read stops after a number of items and then names the key of the last one.
A later read goes on behind that key, whether or not the item is still there.
-/

namespace ItemTable

/-- What to read. -/
structure ReadRequest where
  /-- An index instead of the table itself. -/
  index : Option String
  /-- One partition instead of all. -/
  partition : Option AttributeValue
  /-- What the sort keys have to satisfy. -/
  sort : Option SortCondition
  /-- In increasing order of positions. -/
  forward : Bool
  /-- The most items to list. -/
  limit : Option Nat
  /-- The key to go on from; empty for a read from the beginning. -/
  start : Item

/-- The items that a read lists. -/
structure ReadResult where
  items : List Item
  /-- The key of the last item if there may be more; otherwise empty. -/
  lastKey : Item

namespace Storage

/-- The position of an item.  Within one partition its key does not count.
Items of an index with equal keys are told apart by the keys of the table. -/
def position?
    (storage : Storage)
    (schema : KeySchema)
    (ofIndex inPartition : Bool)
    (item : Item) :
    Option (List KeyValue) := do
  let key ← (schema.primaryKey item).toOption
  let place := if inPartition then [key.sort] else [key.partition, key.sort]
  if ofIndex then
    let tableKey ← (storage.schema.primaryKey item).toOption
    return place ++ [tableKey.partition, tableKey.sort]
  else
    return place

/-- Whether an item has the keys that are asked for. -/
def isSelected
    (schema : KeySchema)
    (partition : Option KeyValue)
    (sort : Option SortCondition)
    (item : Item) :
    Bool :=
  match schema.primaryKey item with
  | .error _ => false
  | .ok key =>
      (partition.all fun value => (value.order key.partition).isEq) &&
        sort.all fun condition => condition.holds key.sort

/-- The items among which a read looks: a partition of the table is found by its
key. -/
def candidates
    (storage : Storage)
    (ofIndex : Bool)
    (partition : Option KeyValue) :
    List Item :=
  match partition, ofIndex with
  | some key, false => ((storage.partition? key).getD []).map Prod.snd
  | _, _ => storage.items

/-- The items with the keys that are asked for, in increasing order of their
positions. -/
def selected
    (storage : Storage)
    (schema : KeySchema)
    (ofIndex : Bool)
    (partition : Option KeyValue)
    (sort : Option SortCondition) :
    List (List KeyValue × Item) :=
  let found := (storage.candidates ofIndex partition).filter (isSelected schema partition sort)
  let placed := found.filterMap fun item =>
    (storage.position? schema ofIndex partition.isSome item).map fun place => (place, item)
  placed.mergeSort fun left right => (compare left.1 right.1).isLE

/-- The items behind the key to go on from. -/
def resumed
    (position? : Item → Option (List KeyValue))
    (forward : Bool)
    (start : Item)
    (rows : List (List KeyValue × Item)) :
    Except KeyError (List (List KeyValue × Item)) :=
  if start.isEmpty then
    .ok rows
  else
    match position? start with
    | none => .error .mismatch
    | some place =>
        .ok (rows.filter fun (other, _) =>
          compare other place == if forward then .gt else .lt)

/-- The key to go on from behind an item. -/
def resumptionKey (storage : Storage) (index : Option KeySchema) (item : Item) : Item :=
  let key := storage.schema.copyKey item ∅
  match index with
  | some schema => schema.copyKey item key
  | none => key

/-- List items in the order of their positions. -/
def read (storage : Storage) (request : ReadRequest) : Except KeyError ReadResult := do
  let schema ← storage.schemaFor request.index
  let partition ← request.partition.mapM schema.partition.keyValue
  let ofIndex := request.index.isSome
  let rows := storage.selected schema ofIndex partition request.sort
  let rows := if request.forward then rows else rows.reverse
  let rows ← resumed (storage.position? schema ofIndex partition.isSome)
    request.forward request.start rows
  let items := rows.map Prod.snd
  match request.limit with
  | none => return { items, lastKey := ∅ }
  | some limit =>
      let page := items.take limit
      if limit ≤ items.length then
        let index := if ofIndex then some schema else none
        let lastKey := page.getLast?.map (storage.resumptionKey index)
        return { items := page, lastKey := lastKey.getD ∅ }
      else
        return { items := page, lastKey := ∅ }

end Storage

end ItemTable
