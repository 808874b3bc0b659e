import ItemTable.Memory.Service
import ItemTable.Proofs.Sequencing
import ItemTable.Proofs.Storage.Items

/-!
# Memories that can come about

A memory begins without tables, and tables come and go with the calls that create
and drop them.  Items change by requests only, each of which is a write of one
table.  So every table of a memory that can come about is a table that can come
about, and there are at most as many pages to a read as the memory allows for.
-/

namespace ItemTable.Memory

/-- The memories that calls and requests lead to, whether or not they succeed. -/
inductive Reachable : Memory → Prop where
  | start : Reachable start
  | createTable
      {memory : Memory}
      (before : Reachable memory)
      (name : String)
      (schema : KeySchema) :
      Reachable (memory.createTable name schema).2
  | createIndex
      {memory : Memory}
      (before : Reachable memory)
      (name index : String)
      (schema : KeySchema) :
      Reachable (memory.createIndex name index schema).2
  | deleteTable
      {memory : Memory}
      (before : Reachable memory)
      (name : String) :
      Reachable (memory.deleteTable name).2
  | put
      {memory : Memory}
      (before : Reachable memory)
      (request : PutRequest) :
      Reachable (memory.put request).2
  | delete
      {memory : Memory}
      (before : Reachable memory)
      (request : DeleteRequest) :
      Reachable (memory.delete request).2

variable {memory : Memory} {name : String} {storage : Storage}

theorem table_eq_ok_iff :
    memory.table name = .ok storage ↔ memory.tables.find? name = some storage := by
  rw [table]
  cases memory.tables.find? name with
  | none =>
      constructor
      · intro found
        cases found
      · intro found
        cases found
  | some found =>
      constructor
      · rintro ⟨⟩
        rfl
      · rintro ⟨⟩
        rfl

/-! ## One step -/

/-- Every table can come about. -/
def OfReachable (memory : Memory) : Prop :=
  ∀ name storage, memory.tables.find? name = some storage → storage.Reachable

theorem OfReachable.start : Memory.start.OfReachable := by
  intro name storage found
  rw [Memory.start, NameMap.find?_empty] at found
  cases found

theorem OfReachable.setTable
    (reachable : memory.OfReachable)
    (name : String)
    (inside : storage.Reachable) :
    (memory.setTable name storage).OfReachable := by
  intro other found
  change (memory.tables.insert name storage).find? other = some found → _
  rw [NameMap.find?_insert]
  split
  · rintro ⟨⟩
    exact inside
  · exact reachable other found

theorem OfReachable.createTable
    (reachable : memory.OfReachable)
    (name : String)
    (schema : KeySchema) :
    (memory.createTable name schema).2.OfReachable := by
  rw [Memory.createTable]
  split
  · exact reachable
  · exact reachable.setTable name (.create schema)

theorem OfReachable.createIndex
    (reachable : memory.OfReachable)
    (name index : String)
    (schema : KeySchema) :
    (memory.createIndex name index schema).2.OfReachable := by
  rw [Memory.createIndex]
  split
  · exact reachable
  · rename_i storage found
    split
    · exact reachable
    · rename_i next added
      have before := reachable name storage (table_eq_ok_iff.mp found)
      exact reachable.setTable name (.addIndex before added)

theorem OfReachable.deleteTable
    (reachable : memory.OfReachable)
    (name : String) :
    (memory.deleteTable name).2.OfReachable := by
  rw [Memory.deleteTable]
  split
  · intro other storage found
    exact reachable other storage (NameMap.find?_of_find?_erase found)
  · exact reachable

theorem OfReachable.put
    (reachable : memory.OfReachable)
    (request : PutRequest) :
    (memory.put request).2.OfReachable := by
  rw [Memory.put]
  dsimp only
  split
  · exact reachable
  · rename_i storage condition prepared
    rcases bind_eq_ok.mp prepared with ⟨found, isTable, others⟩
    rcases bind_eq_ok.mp others with ⟨_, _, isPair⟩
    cases isPair
    have before := reachable _ _ (table_eq_ok_iff.mp isTable)
    have after := reachable.setTable request.tableName
      (before.write (.put request.item (check condition)))
    split <;> exact after

theorem OfReachable.delete
    (reachable : memory.OfReachable)
    (request : DeleteRequest) :
    (memory.delete request).2.OfReachable := by
  rw [Memory.delete]
  dsimp only
  split
  · exact reachable
  · rename_i storage key condition prepared
    rcases bind_eq_ok.mp prepared with ⟨found, isTable, others⟩
    rcases bind_eq_ok.mp others with ⟨_, _, remaining⟩
    rcases bind_eq_ok.mp remaining with ⟨_, _, isTriple⟩
    cases isTriple
    have before := reachable _ _ (table_eq_ok_iff.mp isTable)
    have after := reachable.setTable request.tableName
      (before.write (.delete key (check condition)))
    split <;> exact after

/-! ## All steps -/

/-- Every table of a memory that can come about can come about. -/
theorem Reachable.ofReachable (reachable : memory.Reachable) : memory.OfReachable := by
  induction reachable with
  | start => exact .start
  | createTable before name schema ih => exact ih.createTable name schema
  | createIndex before name index schema ih => exact ih.createIndex name index schema
  | deleteTable before name ih => exact ih.deleteTable name
  | put before request ih => exact ih.put request
  | delete before request ih => exact ih.delete request

theorem Reachable.sound
    (reachable : memory.Reachable)
    (found : memory.table name = .ok storage) :
    storage.Sound :=
  (reachable.ofReachable name storage (table_eq_ok_iff.mp found)).sound

/-! ## Counting items -/

theorem le_total_of_mem
    {number : Nat}
    {numbers : List Nat}
    (member : number ∈ numbers) :
    number ≤ total numbers := by
  induction numbers with
  | nil => cases member
  | cons first numbers ih =>
      rw [total]
      rcases List.mem_cons.mp member with rfl | behind
      · exact Nat.le_add_right _ _
      · exact Nat.le_trans (ih behind) (Nat.le_add_left _ _)

/-- No table has more items than all tables together. -/
theorem length_items_le_totalCount (found : memory.table name = .ok storage) :
    storage.items.length ≤ memory.totalCount := by
  rw [storage.length_items]
  apply le_total_of_mem
  apply List.mem_map.mpr
  exact ⟨(name, storage), NameMap.find?_eq_some_iff.mp (table_eq_ok_iff.mp found), rfl⟩

end ItemTable.Memory
