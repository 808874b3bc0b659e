import ItemTable.Proofs.KeyOrder
import ItemTable.Storage.Basic

/-!
# Every item lies where its key says

A table is sound if its partitions stand under keys that the order tells apart,
each partition lists its items by increasing sort keys, and each item has the
key under which it lies.  A table begins sound and every write, made or
refused, keeps it so.
-/

namespace ItemTable

namespace Partition

variable {schema : KeySchema} {partition : Partition}

/-- A partition in order, whose items have the keys under which they lie. -/
structure Sound
    (schema : KeySchema)
    (key : KeyValue)
    (partition : Partition) : Prop where
  /-- Each sort key is below those behind it. -/
  increasing : partition.Pairwise fun left right => left.1.order right.1 = .lt
  /-- The key of an item is that of its place. -/
  filed : ∀ entry ∈ partition,
    ∃ found, schema.primaryKey entry.2 = .ok found ∧ found.isSame ⟨key, entry.1⟩

theorem Sound.nil (schema : KeySchema) (key : KeyValue) : Sound schema key [] where
  increasing := .nil
  filed := by simp

/-- A partition stands as well under a partition key of the same place. -/
theorem Sound.congr
    {key other : KeyValue}
    (sound : Sound schema key partition)
    (same : key.order other = .eq) :
    Sound schema other partition where
  increasing := sound.increasing
  filed := by
    intro entry member
    rcases sound.filed entry member with ⟨found, keyed, isSame⟩
    rw [PrimaryKey.isSame_iff] at isSame
    refine ⟨found, keyed, PrimaryKey.isSame_iff.mpr ⟨?_, isSame.2⟩⟩
    exact Std.TransCmp.eq_trans isSame.1 same

theorem Sound.sublist
    {key : KeyValue}
    {part : Partition}
    (sound : Sound schema key partition)
    (sublist : part.Sublist partition) :
    Sound schema key part where
  increasing := sound.increasing.sublist sublist
  filed := fun entry member => sound.filed entry (sublist.subset member)

/-! ## Storing -/

/-- After storing, an entry is an old one or holds the new item under its key. -/
theorem mem_store
    {key : KeyValue}
    {item : Item}
    {entry : KeyValue × Item}
    (member : entry ∈ store key item partition) :
    entry ∈ partition ∨ entry.2 = item ∧ entry.1.order key = .eq := by
  induction partition with
  | nil =>
      rw [store, List.mem_singleton] at member
      subst member
      exact .inr ⟨rfl, Std.ReflCmp.compare_self⟩
  | cons head rest ih =>
      rcases head with ⟨other, stored⟩
      rw [store] at member
      split at member
      · rcases List.mem_cons.mp member with rfl | member
        · exact .inl List.mem_cons_self
        · exact (ih member).imp_left (List.mem_cons_of_mem _)
      · rename_i same
        rcases List.mem_cons.mp member with rfl | member
        · exact .inr ⟨rfl, same⟩
        · exact .inl (List.mem_cons_of_mem _ member)
      · rcases List.mem_cons.mp member with rfl | member
        · exact .inr ⟨rfl, Std.ReflCmp.compare_self⟩
        · exact .inl member

theorem store_increasing
    {key : KeyValue}
    {item : Item}
    (increasing : partition.Pairwise fun left right => left.1.order right.1 = .lt) :
    (store key item partition).Pairwise fun left right => left.1.order right.1 = .lt := by
  induction partition with
  | nil => exact List.pairwise_singleton _ _
  | cons head rest ih =>
      rcases head with ⟨other, stored⟩
      rw [List.pairwise_cons] at increasing
      rcases increasing with ⟨below, increasingRest⟩
      rw [store]
      split
      · rename_i less
        refine List.pairwise_cons.mpr ⟨?_, ih increasingRest⟩
        intro entry member
        rcases mem_store member with member | ⟨-, same⟩
        · exact below entry member
        · exact Std.TransCmp.lt_of_lt_of_eq less (Std.OrientedCmp.eq_symm same)
      · exact List.pairwise_cons.mpr ⟨below, increasingRest⟩
      · rename_i greater
        have less : key.order other = .lt := Std.OrientedCmp.lt_of_gt greater
        refine List.pairwise_cons.mpr ⟨?_, List.pairwise_cons.mpr ⟨below, increasingRest⟩⟩
        rintro entry (_ | ⟨_, member⟩)
        · exact less
        · exact Std.TransCmp.lt_trans less (below entry member)

theorem Sound.store
    {key : PrimaryKey}
    {item : Item}
    (sound : Sound schema key.partition partition)
    (keyed : schema.primaryKey item = .ok key) :
    Sound schema key.partition (partition.store key.sort item) where
  increasing := store_increasing sound.increasing
  filed := by
    intro entry member
    rcases mem_store member with member | ⟨rfl, same⟩
    · exact sound.filed entry member
    · refine ⟨key, keyed, PrimaryKey.isSame_iff.mpr ⟨?_, ?_⟩⟩
      · exact Std.ReflCmp.compare_self
      · exact Std.OrientedCmp.eq_symm same

theorem Sound.remove
    {key : KeyValue}
    (sound : Sound schema key partition)
    (sort : KeyValue) :
    Sound schema key (partition.remove sort) :=
  sound.sublist List.filter_sublist

end Partition

namespace Storage

/-- A table of sound partitions whose keys are told apart. -/
structure Sound (storage : Storage) : Prop where
  apart : storage.partitions.Pairwise fun left right => left.1.order right.1 ≠ .eq
  partitions : ∀ entry ∈ storage.partitions, entry.2.Sound storage.schema entry.1

variable {storage : Storage}

theorem Sound.create (schema : KeySchema) : (create schema).Sound where
  apart := .nil
  partitions := by simp [Storage.create]

theorem Sound.partition?
    {key : KeyValue}
    {partition : Partition}
    (sound : storage.Sound)
    (found : storage.partition? key = some partition) :
    partition.Sound storage.schema key := by
  rcases Option.map_eq_some_iff.mp found with ⟨entry, first, rfl⟩
  have same := List.find?_some first
  rw [Ordering.isEq_iff_eq_eq] at same
  exact (sound.partitions entry (List.mem_of_find?_eq_some first)).congr same

/-- The partition of a key is sound, also if it has yet to be opened. -/
theorem Sound.partition
    (sound : storage.Sound)
    (key : KeyValue) :
    ((storage.partition? key).getD []).Sound storage.schema key := by
  cases found : storage.partition? key with
  | none => exact .nil _ _
  | some partition => exact sound.partition? found

/-! ## Partitions -/

/-- After putting a partition in its place, an entry is an old one or the
partition under its key. -/
theorem mem_replacePartition
    {key : KeyValue}
    {partition : Partition}
    {entries : List (KeyValue × Partition)}
    {entry : KeyValue × Partition}
    (member : entry ∈ replacePartition key partition entries) :
    entry ∈ entries ∨ entry.2 = partition ∧ entry.1.order key = .eq := by
  induction entries with
  | nil =>
      rw [replacePartition, List.mem_singleton] at member
      subst member
      exact .inr ⟨rfl, Std.ReflCmp.compare_self⟩
  | cons head rest ih =>
      rcases head with ⟨other, stored⟩
      rw [replacePartition] at member
      split at member
      · rename_i same
        rcases List.mem_cons.mp member with rfl | member
        · exact .inr ⟨rfl, Ordering.isEq_iff_eq_eq.mp same⟩
        · exact .inl (List.mem_cons_of_mem _ member)
      · rcases List.mem_cons.mp member with rfl | member
        · exact .inl List.mem_cons_self
        · exact (ih member).imp_left (List.mem_cons_of_mem _)

theorem replacePartition_apart
    {key : KeyValue}
    {partition : Partition}
    {entries : List (KeyValue × Partition)}
    (apart : entries.Pairwise fun left right => left.1.order right.1 ≠ .eq) :
    (replacePartition key partition entries).Pairwise
      fun left right => left.1.order right.1 ≠ .eq := by
  induction entries with
  | nil => exact List.pairwise_singleton _ _
  | cons head rest ih =>
      rcases head with ⟨other, stored⟩
      rw [List.pairwise_cons] at apart
      rcases apart with ⟨different, apartRest⟩
      rw [replacePartition]
      split
      · exact List.pairwise_cons.mpr ⟨different, apartRest⟩
      · rename_i differs
        refine List.pairwise_cons.mpr ⟨?_, ih apartRest⟩
        intro entry member
        rcases mem_replacePartition member with member | ⟨-, same⟩
        · exact different entry member
        · intro equal
          apply differs
          exact Ordering.isEq_iff_eq_eq.mpr (Std.TransCmp.eq_trans equal same)

theorem Sound.setPartition
    {key : KeyValue}
    {partition : Partition}
    (sound : storage.Sound)
    (inside : partition.Sound storage.schema key) :
    (storage.setPartition key partition).Sound where
  apart := replacePartition_apart sound.apart
  partitions := by
    intro entry member
    rcases mem_replacePartition member with member | ⟨rfl, same⟩
    · exact sound.partitions entry member
    · exact inside.congr (Std.OrientedCmp.eq_symm same)

theorem Sound.closePartition
    (sound : storage.Sound)
    (key : KeyValue) :
    (storage.closePartition key).Sound where
  apart := sound.apart.sublist List.filter_sublist
  partitions := fun entry member =>
    sound.partitions entry (List.filter_sublist.subset member)

/-! ## Writes -/

/-- A put of an item or a delete of a key, each with the check of the stored
item that decides whether it is made. -/
inductive Write : Type 1 where
  | put {ε : Type} (item : Item) (check : Option Item → Except ε Unit)
  | delete {ε : Type} (key : PrimaryKey) (check : Option Item → Except ε Unit)

/-- The table after a write, whether or not it was made. -/
def after (storage : Storage) : Write → Storage
  | .put item check => (storage.putIf item check).2
  | .delete key check => (storage.deleteIf key check).2

/-- A write touches neither the keys of the table nor its indexes. -/
theorem after_schema
    (storage : Storage)
    (write : Write) :
    (storage.after write).schema = storage.schema ∧
      (storage.after write).indexes = storage.indexes := by
  cases write with
  | put item check =>
      simp only [after, putIf]
      split
      · exact ⟨rfl, rfl⟩
      · split <;> exact ⟨rfl, rfl⟩
  | delete key check =>
      simp only [after, deleteIf]
      split
      · split <;> exact ⟨rfl, rfl⟩
      · split
        · exact ⟨rfl, rfl⟩
        · split <;> exact ⟨rfl, rfl⟩

theorem Sound.putIf
    {ε : Type}
    (sound : storage.Sound)
    (item : Item)
    (check : Option Item → Except ε Unit) :
    (storage.putIf item check).2.Sound := by
  simp only [Storage.putIf]
  split
  · exact sound
  · rename_i key keyed
    have inside := sound.partition key.partition
    have opened := sound.setPartition inside
    split
    · exact opened
    · exact opened.setPartition (inside.store keyed)

theorem Sound.deleteIf
    {ε : Type}
    (sound : storage.Sound)
    (key : PrimaryKey)
    (check : Option Item → Except ε Unit) :
    (storage.deleteIf key check).2.Sound := by
  simp only [Storage.deleteIf]
  split
  · split <;> exact sound
  · rename_i partition found
    have inside := (sound.partition? found).remove key.sort
    split
    · exact sound
    · split
      · exact sound.closePartition key.partition
      · exact sound.setPartition inside

/-- Every write keeps the table sound. -/
theorem Sound.after
    (sound : storage.Sound)
    (write : Write) :
    (storage.after write).Sound := by
  cases write with
  | put item check => exact sound.putIf item check
  | delete key check => exact sound.deleteIf key check

/-- The tables that can come about: new ones, and those that an index or a write
makes of them. -/
inductive Reachable : Storage → Prop where
  | create (schema : KeySchema) : Reachable (create schema)
  | addIndex
      {storage next : Storage}
      {name : String}
      {schema : KeySchema}
      (before : Reachable storage)
      (added : storage.addIndex? name schema = some next) :
      Reachable next
  | write
      {storage : Storage}
      (before : Reachable storage)
      (write : Write) :
      Reachable (storage.after write)

/-- Every table that can come about is sound. -/
theorem Reachable.sound (reachable : storage.Reachable) : storage.Sound := by
  induction reachable with
  | create schema => exact .create schema
  | addIndex before added ih =>
      rw [addIndex?] at added
      split at added
      · cases added
      · cases added
        exact ⟨ih.apart, ih.partitions⟩
  | write before write ih => exact ih.after write

end Storage

end ItemTable
