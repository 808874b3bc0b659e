import ItemTable.Proofs.Memory.Writes

/-!
# What a key finds

A request for an item is answered with what its key finds, and a key finds what was left
by the last request about it: requests about other keys and other tables leave it.
-/

namespace ItemTable

/-- A memory answers a request for a whole item with what the table has under the key. -/
theorem Memory.exists_get_eq
    {memory : Memory}
    {request : GetRequest}
    {storage : Storage}
    {key : PrimaryKey}
    (found : memory.tables.find? request.tableName = some storage)
    (keyed : storage.schema.exactKey request.key = .ok key)
    (whole : request.projection = none)
    (noNames : request.names = ∅) :
    ∃ capacity, get request memory = .ok ⟨storage.item? key, capacity⟩ := by
  have shown : (storage.item? key).map (present none) = storage.item? key := by
    cases storage.item? key <;> rfl
  rw [get, table_eq_ok_iff.mpr found, ok_bind, keyed, whole, noNames]
  exact ⟨_, congrArg (fun item => Except.ok (GetReply.mk item _)) shown⟩

/-! ## Later requests -/

/-- A request is about a key of a table. -/
def WriteRequest.Touches
    (request : WriteRequest)
    (name : String)
    (schema : KeySchema)
    (key : PrimaryKey) :
    Prop :=
  request.tableName = name ∧ ∃ other, request.IsAbout schema other ∧ other.isSame key

namespace Memory

/-- A key of a table finds an item, or none. -/
def Finds
    (memory : Memory)
    (name : String)
    (schema : KeySchema)
    (key : PrimaryKey)
    (found : Option Item) :
    Prop :=
  ∃ storage,
    memory.tables.find? name = some storage ∧
      storage.schema = schema ∧ storage.item? key = found

variable
    {memory : Memory}
    {name : String}
    {schema : KeySchema}
    {key : PrimaryKey}
    {found : Option Item}

theorem Reachable.write
    (reachable : memory.Reachable)
    (request : WriteRequest) :
    (memory.write request).2.Reachable := by
  cases request with
  | put request => exact .put reachable request
  | delete request => exact .delete reachable request

/-- A changed key finds what was left. -/
theorem Changes.finds
    {next : Memory}
    {storage : Storage}
    (changes : memory.Changes next name key found)
    (isTable : memory.tables.find? name = some storage) :
    next.Finds name storage.schema key found := by
  rcases changes.here with ⟨before, after, wasTable, nowTable, sameSchema, -, items⟩
  cases isTable.symm.trans wasTable
  refine ⟨after, nowTable, sameSchema, ?_⟩
  rw [items, if_pos key.isSame_refl]

/-- A request that is not about a key leaves what the key finds. -/
theorem Finds.write
    {request : WriteRequest}
    (finds : memory.Finds name schema key found)
    (reachable : memory.Reachable)
    (untouched : ¬request.Touches name schema key) :
    (memory.write request).2.Finds name schema key found := by
  rcases finds with ⟨storage, isTable, rfl, rfl⟩
  cases result : (memory.write request).1 with
  | error error =>
      have tables := reachable.write_alike result name
      rw [isTable] at tables
      cases nowTable : (memory.write request).2.tables.find? name with
      | none =>
          rw [nowTable] at tables
          cases tables
      | some after =>
          rw [nowTable] at tables
          cases tables with
          | some alike => exact ⟨after, nowTable, alike.schema, alike.item? key⟩
  | ok reply =>
      rcases (memory.write_outcome request).changes result with
        ⟨other, otherKey, condition, admits, changes⟩
      by_cases here : request.tableName = name
      · rcases changes.here with ⟨before, after, wasTable, nowTable, sameSchema, -, items⟩
        subst here
        cases isTable.symm.trans wasTable
        cases isTable.symm.trans admits.found
        refine ⟨after, nowTable, sameSchema, ?_⟩
        have different : ¬otherKey.isSame key :=
          fun same => untouched ⟨rfl, otherKey, admits.about, same⟩
        rw [items, if_neg different]
      · refine ⟨storage, ?_, rfl, rfl⟩
        rw [changes.elsewhere name (Ne.symm here)]
        exact isTable

/-- Requests that are not about a key leave what the key finds. -/
theorem Finds.writeAll
    {requests : List WriteRequest}
    (finds : memory.Finds name schema key found)
    (reachable : memory.Reachable)
    (untouched : ∀ request ∈ requests, ¬request.Touches name schema key) :
    (memory.writeAll requests).Finds name schema key found := by
  induction requests generalizing memory with
  | nil => exact finds
  | cons request requests ih =>
      rcases List.forall_mem_cons.mp untouched with ⟨here, behind⟩
      exact ih (finds.write reachable here) (reachable.write request) behind

end Memory

end ItemTable
