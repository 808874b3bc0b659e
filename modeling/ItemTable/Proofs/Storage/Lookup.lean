import ItemTable.Proofs.Storage.Items

/-!
# What a key finds

A write that is made changes what one key finds, and no other write changes what
any key finds: neither one that is refused, although a put may open a partition
for it, nor one of an item without a key.  What a key finds is the item with the
key, so the items that a write leaves are known as well.
-/

namespace ItemTable

/-! ## Entries -/

/-- Without the entries under one key, the others are found as before. -/
theorem find?_without
    {β : Type}
    (entries : List (KeyValue × β))
    (key other : KeyValue) :
    (entries.filter fun entry => !(entry.1.order key).isEq).find?
        (fun entry => (entry.1.order other).isEq) =
      if (key.order other).isEq then none
      else entries.find? fun entry => (entry.1.order other).isEq := by
  induction entries with
  | nil => split <;> rfl
  | cons entry rest ih =>
      have congr (same : (entry.1.order key).isEq) : entry.1.order other = key.order other :=
        Std.TransCmp.congr_left (Ordering.isEq_iff_eq_eq.mp same)
      rw [List.filter_cons]
      cases here : (entry.1.order key).isEq with
      | true =>
          rw [Bool.not_true, if_neg Bool.false_ne_true, ih, List.find?_cons, congr here]
          cases (key.order other).isEq <;> rfl
      | false =>
          rw [Bool.not_false, if_pos rfl, List.find?_cons, List.find?_cons, ih]
          cases found : (entry.1.order other).isEq with
          | false => rfl
          | true => exact (if_neg (KeyValue.apart_of_isEq found (Bool.eq_false_iff.mp here))).symm

/-! ## Partitions -/

namespace Partition

theorem item?_cons
    (place : KeyValue)
    (stored : Item)
    (rest : Partition)
    (key : KeyValue) :
    Partition.item? ((place, stored) :: rest) key =
      if (place.order key).isEq then some stored else Partition.item? rest key := by
  rw [item?, List.find?_cons]
  cases (place.order key).isEq <;> rfl

/-- Storing changes what one sort key finds. -/
theorem item?_store
    (partition : Partition)
    (item : Item)
    (key other : KeyValue) :
    (partition.store key item).item? other =
      if (key.order other).isEq then some item else partition.item? other := by
  induction partition with
  | nil => exact item?_cons _ _ _ _
  | cons entry rest ih =>
      rcases entry with ⟨place, stored⟩
      rw [store]
      split
      · rename_i less
        rw [item?_cons, item?_cons, ih]
        by_cases here : (place.order other).isEq
        · have apart : ¬(place.order key).isEq := by
            rw [less]
            exact Bool.false_ne_true
          rw [if_pos here, if_neg (KeyValue.apart_of_isEq here apart), if_pos here]
        · rw [if_neg here, if_neg here]
      · rename_i same
        have congr : place.order other = key.order other := Std.TransCmp.congr_left same
        rw [item?_cons, item?_cons, congr]
        split <;> rfl
      · rw [item?_cons]

theorem item?_remove
    (partition : Partition)
    (key other : KeyValue) :
    (partition.remove key).item? other =
      if (key.order other).isEq then none else partition.item? other := by
  rw [item?, remove, find?_without]
  split <;> rfl

end Partition

namespace Storage

variable {storage : Storage} {item : Item} {key : PrimaryKey}

theorem find?_replacePartition
    (entries : List (KeyValue × Partition))
    (partition : Partition)
    (value other : KeyValue) :
    ((replacePartition value partition entries).find? fun entry =>
        (entry.1.order other).isEq).map Prod.snd =
      if (value.order other).isEq then some partition
      else (entries.find? fun entry => (entry.1.order other).isEq).map Prod.snd := by
  induction entries with
  | nil =>
      rw [replacePartition, List.find?_cons]
      cases (value.order other).isEq <;> rfl
  | cons entry rest ih =>
      rcases entry with ⟨place, stored⟩
      rw [replacePartition]
      split
      · rename_i same
        have congr : place.order other = value.order other :=
          Std.TransCmp.congr_left (Ordering.isEq_iff_eq_eq.mp same)
        simp only [List.find?_cons, congr]
        cases (value.order other).isEq <;> rfl
      · rename_i apart
        rw [List.find?_cons, List.find?_cons]
        cases here : (place.order other).isEq with
        | false => exact ih
        | true => rw [if_neg (KeyValue.apart_of_isEq here apart)]

/-! ## Items of a table -/

/-- The item with a key, looked up in the partition that a write would open. -/
theorem item?_eq
    (storage : Storage)
    (key : PrimaryKey) :
    storage.item? key =
      Partition.item? ((storage.partition? key.partition).getD []) key.sort := by
  rw [item?]
  cases storage.partition? key.partition with
  | none => rfl
  | some partition => rfl

theorem partition?_congr
    {value other : KeyValue}
    (storage : Storage)
    (same : value.order other = .eq) :
    storage.partition? value = storage.partition? other := by
  have congr (entry : KeyValue × Partition) :
      entry.1.order value = entry.1.order other :=
    Std.TransCmp.congr_right same
  simp only [partition?, congr]

theorem partition?_setPartition
    (storage : Storage)
    (key other : KeyValue)
    (partition : Partition) :
    (storage.setPartition key partition).partition? other =
      if (key.order other).isEq then some partition else storage.partition? other :=
  find?_replacePartition _ _ _ _

theorem partition?_closePartition
    (storage : Storage)
    (key other : KeyValue) :
    (storage.closePartition key).partition? other =
      if (key.order other).isEq then none else storage.partition? other := by
  rw [partition?, closePartition, find?_without, partition?]
  split <;> rfl

theorem item?_setPartition
    (storage : Storage)
    (value : KeyValue)
    (partition : Partition)
    (key : PrimaryKey) :
    (storage.setPartition value partition).item? key =
      if (value.order key.partition).isEq then partition.item? key.sort
      else storage.item? key := by
  rw [item?, partition?_setPartition, item?]
  split <;> rfl

/-- Opening a partition changes nothing that a key finds. -/
theorem item?_openPartition
    (storage : Storage)
    (value : KeyValue)
    (key : PrimaryKey) :
    (storage.setPartition value ((storage.partition? value).getD [])).item? key =
      storage.item? key := by
  rw [item?_setPartition]
  split
  · rename_i same
    rw [storage.partition?_congr (Ordering.isEq_iff_eq_eq.mp same), item?_eq]
  · rfl

theorem item?_closePartition
    (storage : Storage)
    (value : KeyValue)
    (key : PrimaryKey) :
    (storage.closePartition value).item? key =
      if (value.order key.partition).isEq then none else storage.item? key := by
  rw [item?, partition?_closePartition, item?]
  split <;> rfl

/-- If a partition takes the place of another that it differs from under one sort key
only, one key of the table finds something else. -/
theorem item?_setPartition_of_item?
    {partition : Partition}
    {left : Option Item}
    (storage : Storage)
    (key : PrimaryKey)
    (looked : ∀ sort, partition.item? sort =
      if (key.sort.order sort).isEq then left
      else Partition.item? ((storage.partition? key.partition).getD []) sort)
    (other : PrimaryKey) :
    (storage.setPartition key.partition partition).item? other =
      if key.isSame other then left else storage.item? other := by
  rw [item?_setPartition, looked, PrimaryKey.isSame]
  cases partitions : (key.partition.order other.partition).isEq with
  | false => rfl
  | true =>
      rw [storage.partition?_congr (Ordering.isEq_iff_eq_eq.mp partitions), ← item?_eq]
      rfl

/-- A key finds the item that has the key. -/
theorem Sound.item?_eq_some_iff (sound : storage.Sound) :
    storage.item? key = some item ↔
      item ∈ storage.items ∧
        ∃ found, storage.schema.primaryKey item = .ok found ∧ found.isSame key := by
  have inside := sound.partition key.partition
  rw [item?_eq]
  constructor
  · intro looked
    rcases Option.map_eq_some_iff.mp looked with ⟨entry, first, rfl⟩
    have member := List.mem_of_find?_eq_some first
    have same := List.find?_some first
    rcases inside.filed entry member with ⟨found, keyed, isSame⟩
    refine ⟨mem_items_of_mem_partition (List.mem_map_of_mem member), found, keyed, ?_⟩
    apply PrimaryKey.isSame_trans isSame
    exact PrimaryKey.isSame_iff.mpr ⟨Std.ReflCmp.compare_self, Ordering.isEq_iff_eq_eq.mp same⟩
  · rintro ⟨stored, found, keyed, isSame⟩
    rw [PrimaryKey.isSame_iff] at isSame
    rcases List.mem_map.mp (sound.mem_partition stored keyed isSame.1) with
      ⟨entry, member, rfl⟩
    rcases inside.filed entry member with ⟨_, again, filed⟩
    rw [keyed] at again
    cases again
    have here : entry.1.order key.sort = .eq :=
      Std.TransCmp.eq_trans (Std.OrientedCmp.eq_symm (PrimaryKey.isSame_iff.mp filed).2)
        isSame.2
    have apart : ((storage.partition? key.partition).getD []).Pairwise
        fun left right => left.1.order right.1 ≠ .eq := by
      apply inside.increasing.imp
      intro left right less equal
      rw [less] at equal
      cases equal
    rw [Partition.item?, find?_of_apart apart member here]
    rfl

/-- The items of a table are those that their keys find. -/
theorem Sound.mem_items_iff (sound : storage.Sound) :
    item ∈ storage.items ↔
      ∃ key, storage.schema.primaryKey item = .ok key ∧ storage.item? key = some item := by
  constructor
  · intro stored
    rcases sound.keyed stored with ⟨key, keyed⟩
    refine ⟨key, keyed, sound.item?_eq_some_iff.mpr ⟨stored, key, keyed, ?_⟩⟩
    exact key.isSame_refl
  · rintro ⟨key, -, looked⟩
    exact (sound.item?_eq_some_iff.mp looked).1

/-! ## Writes -/

/-- What a put leads to: an item without a key stays out, a check that refuses leaves
what every key finds, and otherwise the key of the item finds the item. -/
theorem putIf_cases
    {ε : Type}
    (storage : Storage)
    (item : Item)
    (check : Option Item → Except ε Unit) :
    (∃ error,
      storage.schema.primaryKey item = .error error ∧
        storage.putIf item check = (.error (.key error), storage)) ∨
    (∃ key error,
      storage.schema.primaryKey item = .ok key ∧
        check (storage.item? key) = .error error ∧
        (storage.putIf item check).1 = .error (.refused error) ∧
        ∀ other, (storage.putIf item check).2.item? other = storage.item? other) ∨
    ∃ key,
      storage.schema.primaryKey item = .ok key ∧
        check (storage.item? key) = .ok () ∧
        (storage.putIf item check).1 = .ok (storage.item? key) ∧
        ∀ other, (storage.putIf item check).2.item? other =
          if key.isSame other then some item else storage.item? other := by
  rw [putIf]
  cases keyed : storage.schema.primaryKey item with
  | error error => exact .inl ⟨error, rfl, rfl⟩
  | ok key =>
      refine .inr ?_
      -- The partition is opened before the check is asked, which no key notices.
      have opened := storage.item?_openPartition key.partition
      dsimp only
      rw [← item?_eq]
      cases checked : check (storage.item? key) with
      | error error => exact .inl ⟨key, error, rfl, checked, rfl, opened⟩
      | ok _ =>
          refine .inr ⟨key, rfl, checked, rfl, ?_⟩
          intro other
          rw [← opened other]
          apply item?_setPartition_of_item?
          intro sort
          rw [Partition.item?_store]
          have same := opened ⟨key.partition, sort⟩
          rw [item?_eq, item?_eq] at same
          rw [same]

/-- What a delete leads to: a check that refuses leaves everything, and otherwise the
key finds nothing. -/
theorem deleteIf_cases
    {ε : Type}
    (storage : Storage)
    (key : PrimaryKey)
    (check : Option Item → Except ε Unit) :
    (∃ error,
      check (storage.item? key) = .error error ∧
        storage.deleteIf key check = (.error error, storage)) ∨
    check (storage.item? key) = .ok () ∧
      (storage.deleteIf key check).1 = .ok (storage.item? key) ∧
      ∀ other, (storage.deleteIf key check).2.item? other =
        if key.isSame other then none else storage.item? other := by
  rw [deleteIf]
  cases found : storage.partition? key.partition with
  | none =>
      have absent : storage.item? key = none := by
        rw [item?, found]
        rfl
      rw [absent]
      cases checked : check none with
      | error error => exact .inl ⟨error, rfl, rfl⟩
      | ok _ =>
          refine .inr ⟨rfl, rfl, ?_⟩
          intro other
          dsimp only
          split
          · rename_i same
            rw [item?, ← storage.partition?_congr (PrimaryKey.isSame_iff.mp same).1, found]
            rfl
          · rfl
  | some partition =>
      have looked : storage.item? key = partition.item? key.sort := by
        rw [item?, found]
        rfl
      dsimp only
      rw [← looked]
      cases checked : check (storage.item? key) with
      | error error => exact .inl ⟨error, rfl, rfl⟩
      | ok _ =>
          refine .inr ⟨rfl, ?_⟩
          dsimp only
          have removed (other : PrimaryKey) :
              (storage.setPartition key.partition (partition.remove key.sort)).item? other =
                if key.isSame other then none else storage.item? other := by
            apply item?_setPartition_of_item?
            intro sort
            rw [found]
            exact Partition.item?_remove _ _ _
          split
          · rename_i empty
            refine ⟨rfl, ?_⟩
            intro other
            rw [← removed other, empty, item?_closePartition, item?_setPartition]
            rfl
          · exact ⟨rfl, removed⟩

end Storage

end ItemTable
