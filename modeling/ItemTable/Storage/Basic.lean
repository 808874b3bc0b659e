import ItemTable.KeySchema
import ItemTable.Number.Natural

/-!
# Stored items

The items of a table lie in partitions, one for each value of the partition key
that was met.  A partition lists its items in increasing order of their sort
keys.  Keys count as one if the order of key values does not tell them apart;
the key that was met first stays.

A write looks at the item that is stored under its key and is refused if a check
of that item fails.  A put opens the partition of its item before the check;
a delete closes a partition that holds nothing afterwards.
-/

namespace ItemTable

/-- The items of one partition with their sort keys, in increasing order. -/
abbrev Partition :=
  List (KeyValue × Item)

namespace Partition

/-- The item with a sort key. -/
def item? (partition : Partition) (key : KeyValue) : Option Item :=
  (partition.find? fun entry => (entry.1.order key).isEq).map Prod.snd

/-- Store an item under a sort key, in the place of an item that has the key. -/
def store (key : KeyValue) (item : Item) : Partition → Partition
  | [] => [(key, item)]
  | (other, stored) :: rest =>
      match other.order key with
      | .lt => (other, stored) :: store key item rest
      | .eq => (other, item) :: rest
      | .gt => (key, item) :: (other, stored) :: rest

/-- Take away the item with a sort key. -/
def remove (partition : Partition) (key : KeyValue) : Partition :=
  partition.filter fun entry => !(entry.1.order key).isEq

end Partition

/-- A table: its keys, its indexes and its items. -/
structure Storage where
  schema : KeySchema
  /-- Each index has keys of its own. -/
  indexes : NameMap KeySchema
  /-- The partitions in no particular order, each under its partition key. -/
  partitions : List (KeyValue × Partition)

/-- Why a write was not made. -/
inductive WriteError (ε : Type) where
  /-- The item has no key. -/
  | key (error : KeyError)
  /-- The check of the stored item failed. -/
  | refused (error : ε)

namespace Storage

/-- A table without indexes and items. -/
def create (schema : KeySchema) : Storage where
  schema := schema
  indexes := ∅
  partitions := []

/-! ## Indexes -/

/-- Add an index; none if the name is taken. -/
def addIndex? (storage : Storage) (name : String) (schema : KeySchema) : Option Storage :=
  if storage.indexes.contains name then
    none
  else
    some { storage with indexes := storage.indexes.insert name schema }

/-- The keys of an index, or of the table itself. -/
def schemaFor (storage : Storage) : Option String → Except KeyError KeySchema
  | none => .ok storage.schema
  | some name =>
      match storage.indexes.find? name with
      | some schema => .ok schema
      | none => .error (.unknownIndex name)

/-! ## Partitions -/

/-- The partition under a partition key. -/
def partition? (storage : Storage) (key : KeyValue) : Option Partition :=
  (storage.partitions.find? fun entry => (entry.1.order key).isEq).map Prod.snd

/-- Put a partition in the place of the one under a partition key, or behind the
others if there is none. -/
def replacePartition
    (key : KeyValue)
    (partition : Partition) :
    List (KeyValue × Partition) → List (KeyValue × Partition)
  | [] => [(key, partition)]
  | (other, stored) :: rest =>
      if (other.order key).isEq then
        (other, partition) :: rest
      else
        (other, stored) :: replacePartition key partition rest

/-- The table with the given partition under a partition key. -/
def setPartition (storage : Storage) (key : KeyValue) (partition : Partition) : Storage :=
  { storage with partitions := replacePartition key partition storage.partitions }

/-- The table without the partition under a partition key. -/
def closePartition (storage : Storage) (key : KeyValue) : Storage :=
  { storage with
    partitions := storage.partitions.filter fun entry => !(entry.1.order key).isEq }

/-- The items in the order in which the partitions come. -/
def items (storage : Storage) : List Item :=
  storage.partitions.flatMap fun (_, partition) => partition.map Prod.snd

/-- The number of items. -/
def itemCount (storage : Storage) : Nat :=
  total (storage.partitions.map fun (_, partition) => partition.length)

/-! ## Items -/

/-- The item with a key. -/
def item? (storage : Storage) (key : PrimaryKey) : Option Item :=
  storage.partition? key.partition >>= fun partition => partition.item? key.sort

/-- Store an item, if the check accepts the one in its place.  The result is the
item that was there before. -/
def putIf
    {ε : Type}
    (storage : Storage)
    (item : Item)
    (check : Option Item → Except ε Unit) :
    Except (WriteError ε) (Option Item) × Storage :=
  match storage.schema.primaryKey item with
  | .error error => (.error (.key error), storage)
  | .ok key =>
      let partition := (storage.partition? key.partition).getD []
      let opened := storage.setPartition key.partition partition
      let stored := partition.item? key.sort
      match check stored with
      | .error error => (.error (.refused error), opened)
      | .ok () =>
          (.ok stored, opened.setPartition key.partition (partition.store key.sort item))

/-- Take the item with a key away, if the check accepts it.  The result is the
item that was there. -/
def deleteIf
    {ε : Type}
    (storage : Storage)
    (key : PrimaryKey)
    (check : Option Item → Except ε Unit) :
    Except ε (Option Item) × Storage :=
  match storage.partition? key.partition with
  | none =>
      match check none with
      | .error error => (.error error, storage)
      | .ok () => (.ok none, storage)
  | some partition =>
      let stored := partition.item? key.sort
      match check stored with
      | .error error => (.error error, storage)
      | .ok () =>
          match partition.remove key.sort with
          | [] => (.ok stored, storage.closePartition key.partition)
          | rest => (.ok stored, storage.setPartition key.partition rest)

end Storage

end ItemTable
