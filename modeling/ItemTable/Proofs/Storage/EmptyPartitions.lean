import ItemTable.Proofs.Storage.Calls
import ItemTable.Proofs.Storage.Pages

/-!
# Empty partitions

A delete closes a partition that holds nothing any more, and a put that is made leaves an
item in its partition.  A put opens its partition before its check is asked, however, and
does not close it again if the check refuses.  So a partition is empty just if a refused
put opened it and no write was made in it since; every other write that is not made leaves
the table exactly as it was.
-/

namespace ItemTable

theorem Partition.store_ne_nil
    (key : KeyValue)
    (item : Item)
    (partition : Partition) :
    partition.store key item ≠ [] := by
  cases partition with
  | nil => exact List.cons_ne_nil _ _
  | cons entry rest =>
      rw [store]
      split <;> exact List.cons_ne_nil _ _

namespace Storage

variable {storage : Storage} {value : KeyValue}

/-! ## Partitions in their places -/

/-- Putting a partition in its own place changes nothing. -/
theorem replacePartition_of_find?
    {entries : List (KeyValue × Partition)}
    {partition : Partition}
    (found :
      (entries.find? fun entry => (entry.1.order value).isEq).map Prod.snd = some partition) :
    replacePartition value partition entries = entries := by
  induction entries with
  | nil => cases found
  | cons entry rest ih =>
      rw [List.find?_cons] at found
      rw [replacePartition]
      cases here : (entry.1.order value).isEq with
      | true =>
          rw [here] at found
          cases found
          rfl
      | false =>
          rw [here] at found
          rw [if_neg Bool.false_ne_true, ih found]

/-- A partition that has no place yet comes behind the others. -/
theorem replacePartition_of_find?_eq_none
    {entries : List (KeyValue × Partition)}
    (partition : Partition)
    (absent : entries.find? (fun entry => (entry.1.order value).isEq) = none) :
    replacePartition value partition entries = entries ++ [(value, partition)] := by
  induction entries with
  | nil => rfl
  | cons entry rest ih =>
      rw [List.find?_cons] at absent
      rw [replacePartition]
      cases here : (entry.1.order value).isEq with
      | true =>
          rw [here] at absent
          cases absent
      | false =>
          rw [here] at absent
          rw [if_neg Bool.false_ne_true, ih absent]
          rfl

/-! ## One write -/

/-- Whether a write is made in the partition under a key: it is about a key there and its
check accepts the item with that key. -/
def Write.IsMadeIn (storage : Storage) (value : KeyValue) : Write → Prop
  | .put item check =>
      ∃ key,
        storage.schema.primaryKey item = .ok key ∧ key.partition.order value = .eq ∧
          check (storage.item? key) = .ok ()
  | .delete key check =>
      key.partition.order value = .eq ∧ check (storage.item? key) = .ok ()

/-- Whether a write opens the partition under a key without an item to put there: it is a
put whose check refuses, and there was no partition. -/
def Write.OpensInVain (storage : Storage) (value : KeyValue) : Write → Prop
  | .put item check =>
      ∃ key error,
        storage.schema.primaryKey item = .ok key ∧ key.partition.order value = .eq ∧
          storage.partition? key.partition = none ∧
          check (storage.item? key) = .error error
  | .delete _ _ => False

section

variable {ε : Type} {item : Item} {check : Option Item → Except ε Unit} {key : PrimaryKey}

theorem after_put_of_refused
    {error : ε}
    (keyed : storage.schema.primaryKey item = .ok key)
    (refused : check (storage.item? key) = .error error) :
    storage.after (.put item check) =
      storage.setPartition key.partition ((storage.partition? key.partition).getD []) := by
  rw [item?_eq] at refused
  rw [after, putIf, keyed]
  dsimp only
  rw [refused]

theorem partition?_after_put_of_accepted
    (keyed : storage.schema.primaryKey item = .ok key)
    (accepted : check (storage.item? key) = .ok ()) :
    (storage.after (.put item check)).partition? value =
      if (key.partition.order value).isEq then
        some (((storage.partition? key.partition).getD []).store key.sort item)
      else
        storage.partition? value := by
  rw [item?_eq] at accepted
  rw [after, putIf, keyed]
  dsimp only
  rw [accepted]
  dsimp only
  rw [partition?_setPartition, partition?_setPartition]
  split <;> rfl

/-- A delete that is made leaves no empty partition where it is made. -/
theorem partition?_after_delete_of_accepted
    (accepted : check (storage.item? key) = .ok ()) :
    (storage.after (.delete key check)).partition? value = some [] ↔
      ¬key.partition.order value = .eq ∧ storage.partition? value = some [] := by
  rw [after, deleteIf]
  cases found : storage.partition? key.partition with
  | none =>
      have absent : storage.item? key = none := by
        rw [item?, found]
        rfl
      rw [absent] at accepted
      dsimp only
      rw [accepted]
      refine ⟨fun empty => ⟨fun here => ?_, empty⟩, And.right⟩
      rw [← storage.partition?_congr here, found] at empty
      cases empty
  | some partition =>
      have looked : storage.item? key = partition.item? key.sort := by
        rw [item?, found]
        rfl
      rw [looked] at accepted
      dsimp only
      rw [accepted]
      dsimp only
      split
      · rw [partition?_closePartition]
        by_cases here : key.partition.order value = .eq <;> simp [here, Ordering.isEq_iff_eq_eq]
      · rename_i occupied
        rw [partition?_setPartition]
        by_cases here : key.partition.order value = .eq
        · simpa [here] using occupied
        · simp [here, Ordering.isEq_iff_eq_eq]

end

/-- A put that is refused leaves the table as it was, unless it opened a partition in vain,
which then comes behind the others. -/
theorem after_put_of_refused_cases
    {ε : Type}
    {item : Item}
    {check : Option Item → Except ε Unit}
    {key : PrimaryKey}
    {error : ε}
    (keyed : storage.schema.primaryKey item = .ok key)
    (refused : check (storage.item? key) = .error error) :
    storage.after (.put item check) = storage ∨
      Write.OpensInVain storage key.partition (.put item check) ∧
        (storage.after (.put item check)).partitions =
          storage.partitions ++ [(key.partition, [])] := by
  rw [after_put_of_refused keyed refused, setPartition]
  cases found : storage.partition? key.partition with
  | some partition =>
      left
      rw [Option.getD_some, replacePartition_of_find? found]
  | none =>
      right
      refine ⟨⟨key, error, keyed, Std.ReflCmp.compare_self, found, refused⟩, ?_⟩
      exact replacePartition_of_find?_eq_none [] (Option.map_eq_none_iff.mp found)

/-- After a put there is an empty partition under a key if the put opened it in vain, or
there was one and the put is not made in it. -/
theorem partition?_after_put_eq_nil_iff
    {ε : Type}
    (storage : Storage)
    (item : Item)
    (check : Option Item → Except ε Unit)
    (value : KeyValue) :
    (storage.after (.put item check)).partition? value = some [] ↔
      Write.OpensInVain storage value (.put item check) ∨
        storage.partition? value = some [] ∧
          ¬Write.IsMadeIn storage value (.put item check) := by
  rw [Write.OpensInVain, Write.IsMadeIn]
  cases keyed : storage.schema.primaryKey item with
  | error error =>
      have same : storage.after (.put item check) = storage := by
        rw [after, putIf, keyed]
      simp [same]
  | ok key =>
      simp only [Except.ok.injEq, ↓existsAndEq, true_and]
      cases checked : check (storage.item? key) with
      | error error =>
          rw [after_put_of_refused keyed checked, partition?_setPartition]
          by_cases here : key.partition.order value = .eq
          · rw [storage.partition?_congr here]
            cases storage.partition? value <;> simp [here]
          · simp [here, Ordering.isEq_iff_eq_eq]
      | ok _ =>
          rw [partition?_after_put_of_accepted keyed checked]
          have stored := Partition.store_ne_nil key.sort item
            ((storage.partition? key.partition).getD [])
          by_cases here : key.partition.order value = .eq
          · simp [here, stored]
          · simp [here, Ordering.isEq_iff_eq_eq]

/-- After a write there is an empty partition under a key if the write opened it in vain,
or there was one and the write is not made in it. -/
theorem partition?_after_eq_nil_iff
    (storage : Storage)
    (write : Write)
    (value : KeyValue) :
    (storage.after write).partition? value = some [] ↔
      write.OpensInVain storage value ∨
        storage.partition? value = some [] ∧ ¬write.IsMadeIn storage value := by
  cases write with
  | put item check => exact partition?_after_put_eq_nil_iff storage item check value
  | delete key check =>
      rw [Write.OpensInVain, Write.IsMadeIn, false_or]
      cases checked : check (storage.item? key) with
      | ok _ =>
          rw [partition?_after_delete_of_accepted checked]
          simp [and_comm]
      | error error =>
          rcases storage.deleteIf_cases key check with ⟨_, -, refused⟩ | ⟨accepted, -, -⟩
          · rw [after, refused]
            simp
          · rw [checked] at accepted
            cases accepted

/-- A write that is not made leaves the table as it was, unless it opened a partition in
vain, which then comes behind the others. -/
theorem after_of_isError
    {write : Write}
    (refused : (storage.write write).1.isError) :
    storage.after write = storage ∨
      ∃ value, write.OpensInVain storage value ∧
        (storage.after write).partitions = storage.partitions ++ [(value, [])] := by
  cases write with
  | put item check =>
      rcases storage.putIf_cases item check with
        ⟨error, -, unkeyed⟩ | ⟨key, error, keyed, checked, -, -⟩ | ⟨key, -, -, made, -⟩
      · left
        rw [after, unkeyed]
      · rcases after_put_of_refused_cases keyed checked with same | ⟨inVain, opened⟩
        · exact .inl same
        · exact .inr ⟨key.partition, inVain, opened⟩
      · change (Answer.put (storage.putIf item check).1).isError at refused
        rw [made] at refused
        cases refused
  | delete key check =>
      rcases storage.deleteIf_cases key check with ⟨error, -, same⟩ | ⟨-, made, -⟩
      · left
        rw [after, same]
      · change (Answer.delete (storage.deleteIf key check).1).isError at refused
        rw [made] at refused
        cases refused

/-! ## Runs of writes -/

/-- Whether no write of a run is made in the partition under a key. -/
def SparesPartition (storage : Storage) (value : KeyValue) : List Write → Prop
  | [] => True
  | write :: rest =>
      ¬write.IsMadeIn storage value ∧ (storage.after write).SparesPartition value rest

/-- Whether a write of a run opens the partition under a key in vain, and no later one is
made in it. -/
def LeavesEmpty (storage : Storage) (value : KeyValue) (writes : List Write) : Prop :=
  ∃ before write rest,
    writes = before ++ write :: rest ∧
      write.OpensInVain (storage.afterAll before) value ∧
      ((storage.afterAll before).after write).SparesPartition value rest

theorem leavesEmpty_cons
    (write : Write)
    (writes : List Write) :
    storage.LeavesEmpty value (write :: writes) ↔
      write.OpensInVain storage value ∧ (storage.after write).SparesPartition value writes ∨
        (storage.after write).LeavesEmpty value writes := by
  constructor
  · rintro ⟨_ | ⟨first, before⟩, opening, rest, split, inVain, spared⟩
    · cases split
      exact .inl ⟨inVain, spared⟩
    · cases split
      exact .inr ⟨before, opening, rest, rfl, inVain, spared⟩
  · rintro (⟨inVain, spared⟩ | ⟨before, opening, rest, rfl, inVain, spared⟩)
    · exact ⟨[], write, writes, rfl, inVain, spared⟩
    · exact ⟨write :: before, opening, rest, rfl, inVain, spared⟩

/-- After a run there is an empty partition under a key if there was one before and no
write is made in it, or the run leaves one. -/
theorem partition?_afterAll_eq_nil_iff
    (storage : Storage)
    (writes : List Write)
    (value : KeyValue) :
    (storage.afterAll writes).partition? value = some [] ↔
      storage.partition? value = some [] ∧ storage.SparesPartition value writes ∨
        storage.LeavesEmpty value writes := by
  induction writes generalizing storage with
  | nil => simp [afterAll, SparesPartition, LeavesEmpty]
  | cons write writes ih =>
      rw [leavesEmpty_cons, SparesPartition]
      refine (ih (storage.after write)).trans ?_
      rw [partition?_after_eq_nil_iff]
      tauto

theorem Sound.partition?_eq_some_iff
    {partition : Partition}
    (sound : storage.Sound) :
    storage.partition? value = some partition ↔
      ∃ entry ∈ storage.partitions, entry.1.order value = .eq ∧ entry.2 = partition := by
  rw [Storage.partition?, Option.map_eq_some_iff]
  constructor
  · rintro ⟨entry, found, rfl⟩
    have same := List.find?_some found
    rw [Ordering.isEq_iff_eq_eq] at same
    exact ⟨entry, List.mem_of_find?_eq_some found, same, rfl⟩
  · rintro ⟨entry, member, same, rfl⟩
    exact ⟨entry, find?_of_apart sound.apart member same, rfl⟩

/-- A table without partitions that some writes were sent to, made or not, holds an empty
partition under a key just if a put that was refused opened it, and no write was made in it
since.  A write that is not made leaves such a table exactly as it was, or adds one empty
partition. -/
theorem empty_partitions_of_refused_puts
    (schema : KeySchema)
    (indexes : NameMap KeySchema)
    (writes : List Write) :
    let start : Storage := ⟨schema, indexes, []⟩
    let table := start.afterAll writes
    (∀ value,
      (∃ entry ∈ table.partitions, entry.1.order value = .eq ∧ entry.2 = []) ↔
        start.LeavesEmpty value writes) ∧
      ∀ write, (table.write write).1.isError →
        table.after write = table ∨
          ∃ value, write.OpensInVain table value ∧
            (table.after write).partitions = table.partitions ++ [(value, [])] := by
  intro start table
  refine ⟨fun value => ?_, fun write refused => after_of_isError refused⟩
  have begins : start.Sound := ⟨.nil, by simp [start]⟩
  have sound : table.Sound := (begins.afterAll writes).1
  have unopened : start.partition? value = none := rfl
  rw [← sound.partition?_eq_some_iff, partition?_afterAll_eq_nil_iff, unopened]
  simp

/-- A put that is refused by its check, in a table without items: its partition stays
open, and holds nothing. -/
theorem refused_put_leaves_partition :
    let start := create ⟨⟨"id", .string⟩, none⟩
    let refused : Write :=
      .put (.ofList [("id", .string "a")]) fun _ => (.error () : Except Unit Unit)
    (start.write refused).1.isError ∧
      (start.after refused).partitions = [(.string "a", [])] ∧
      ¬(∀ entry ∈ (start.after refused).partitions, entry.2 ≠ []) ∧
      start.after refused ≠ start := by
  intro start refused
  have opened : (start.after refused).partitions = [(.string "a", [])] := rfl
  refine ⟨rfl, opened, fun occupied => ?_, fun same => ?_⟩
  · rw [opened] at occupied
    exact occupied _ List.mem_cons_self rfl
  · rw [same] at opened
    cases opened

end Storage

end ItemTable
