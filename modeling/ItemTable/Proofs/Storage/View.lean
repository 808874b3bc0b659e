import ItemTable.Proofs.Storage.Items
import ItemTable.Storage.Read

/-!
# Rows of a read

What a read sees of a table is decided by a few things that no write changes:
the keys of the table and of the index, and what is asked of them.  They make
up a `ReadView`.  The rows of a view are the items that it selects, each with
its position.

In a sound table the positions of the rows are told apart, so the rows have only
one order.  The key to go on from that a page names has the position of its
item, whatever has become of the item.
-/

namespace ItemTable

/-- An item with its position. -/
abbrev Row :=
  List KeyValue × Item

/-- What a read sees of a table. -/
structure ReadView where
  /-- The keys of the table. -/
  table : KeySchema
  /-- The keys of the index, if one is read. -/
  index : Option KeySchema
  partition : Option KeyValue
  sort : Option SortCondition

/-- How a request sees a table. -/
def Storage.view (storage : Storage) (request : ReadRequest) : Except KeyError ReadView := do
  let schema ← storage.schemaFor request.index
  let partition ← request.partition.mapM schema.partition.keyValue
  return {
    table := storage.schema
    index := if request.index.isSome then some schema else none
    partition
    sort := request.sort }

namespace Storage

variable {storage : Storage} {request : ReadRequest} {view : ReadView}

theorem view_congr
    {other : Storage}
    (schema : other.schema = storage.schema)
    (indexes : other.indexes = storage.indexes) :
    other.view request = storage.view request := by
  have schemaFor : other.schemaFor request.index = storage.schemaFor request.index := by
    unfold Storage.schemaFor
    rw [schema, indexes]
  unfold view
  rw [schemaFor, schema]

/-- A view has the keys of its table, and of an index exactly if one is read. -/
theorem view_keys (seen : storage.view request = .ok view) :
    storage.schema = view.table ∧ (request.index = none → view.index = none) := by
  rw [Storage.view] at seen
  cases found : storage.schemaFor request.index with
  | error error =>
      rw [found] at seen
      cases seen
  | ok schema =>
      cases typed : request.partition.mapM schema.partition.keyValue with
      | error error =>
          simp only [bind, Except.bind, found, typed] at seen
          cases seen
      | ok partition =>
          simp only [bind, Except.bind, found, typed] at seen
          cases seen
          refine ⟨rfl, ?_⟩
          intro ofTable
          rw [ofTable]
          rfl

/-- A query selects an item by asking both parts of its key. -/
theorem isSelected_of_primaryKey
    {schema : KeySchema}
    {item : Item}
    {key : PrimaryKey}
    (keyed : schema.primaryKey item = .ok key)
    (value : KeyValue)
    (sort : Option SortCondition) :
    isSelected schema (some value) sort item =
      ((key.partition.order value).isEq &&
        sort.all fun condition => condition.holds key.sort) := by
  have swap : value.order key.partition = (key.partition.order value).swap :=
    Std.OrientedCmp.eq_swap
  rw [isSelected, keyed]
  simp only [Option.all_some, swap]
  cases key.partition.order value <;> rfl

end Storage

namespace ReadView

variable {view : ReadView} {item : Item} {place : List KeyValue}

/-- The keys by which items are selected and ordered. -/
def schema (view : ReadView) : KeySchema :=
  view.index.getD view.table

/-- The position of an item. -/
def position? (view : ReadView) (item : Item) : Option (List KeyValue) :=
  (Storage.create view.table).position? view.schema view.index.isSome view.partition.isSome item

/-- Whether an item has the keys that are asked for. -/
def selects (view : ReadView) (item : Item) : Bool :=
  Storage.isSelected view.schema view.partition view.sort item

/-- The key to go on from behind an item. -/
def resumptionKey (view : ReadView) (item : Item) : Item :=
  (Storage.create view.table).resumptionKey view.index item

/-- The selected items of a table in increasing order of their positions. -/
def rows (view : ReadView) (storage : Storage) : List Row :=
  storage.selected view.schema view.index.isSome view.partition view.sort

/-! ## Selection -/

theorem selects_iff :
    view.selects item ↔
      ∃ key,
        view.schema.primaryKey item = .ok key ∧
          (∀ value ∈ view.partition, value.order key.partition = .eq) ∧
          ∀ condition ∈ view.sort, condition.holds key.sort := by
  rw [selects, Storage.isSelected]
  cases view.schema.primaryKey item with
  | error error => simp
  | ok key => simp [Option.all_eq_true, Ordering.isEq_iff_eq_eq]

/-! ## Positions -/

/-- The position that a key has together with the key of the table. -/
def placeOf (view : ReadView) (key tableKey : PrimaryKey) : List KeyValue :=
  (if view.partition.isSome then [key.sort] else [key.partition, key.sort]) ++
    if view.index.isSome then [tableKey.partition, tableKey.sort] else []

theorem position?_eq_some_iff :
    view.position? item = some place ↔
      ∃ key tableKey,
        view.schema.primaryKey item = .ok key ∧
          view.table.primaryKey item = .ok tableKey ∧
          place = view.placeOf key tableKey := by
  rcases view with ⟨table, index, partition, sort⟩
  cases index with
  | none =>
      simp only [position?, Storage.position?, schema, placeOf, Option.getD_none]
      cases table.primaryKey item with
      | error error => simp [Except.toOption]
      | ok key =>
          constructor
          · rintro ⟨⟩
            exact ⟨key, key, rfl, rfl, (List.append_nil _).symm⟩
          · rintro ⟨_, _, ⟨⟩, ⟨⟩, rfl⟩
            exact congrArg some (List.append_nil _).symm
  | some keys =>
      simp only [position?, Storage.position?, schema, placeOf, Option.getD_some,
        Storage.create]
      cases keys.primaryKey item with
      | error error => simp [Except.toOption]
      | ok key =>
          cases table.primaryKey item with
          | error error => simp [Except.toOption]
          | ok tableKey =>
              constructor
              · rintro ⟨⟩
                exact ⟨key, tableKey, rfl, rfl, rfl⟩
              · rintro ⟨_, _, ⟨⟩, ⟨⟩, rfl⟩
                rfl

/-- Selected items with different keys in the table have different positions. -/
theorem compare_position_ne
    {left right : Item}
    {leftPlace rightPlace : List KeyValue}
    (leftSelected : view.selects left)
    (rightSelected : view.selects right)
    (leftPlaced : view.position? left = some leftPlace)
    (rightPlaced : view.position? right = some rightPlace)
    (apart : Storage.Apart view.table left right) :
    compare leftPlace rightPlace ≠ .eq := by
  intro equal
  rcases position?_eq_some_iff.mp leftPlaced with ⟨leftKey, leftTable, leftKeyed, leftFiled, rfl⟩
  rcases position?_eq_some_iff.mp rightPlaced with
    ⟨rightKey, rightTable, rightKeyed, rightFiled, rfl⟩
  have different := apart _ _ leftFiled rightFiled
  rw [← Bool.not_eq_true, PrimaryKey.isSame_iff] at different
  apply different
  rcases view with ⟨table, index, partition, sort⟩
  rcases selects_iff.mp leftSelected with ⟨_, leftFound, leftPartition, -⟩
  rcases selects_iff.mp rightSelected with ⟨_, rightFound, rightPartition, -⟩
  rw [leftKeyed] at leftFound
  rw [rightKeyed] at rightFound
  cases leftFound
  cases rightFound
  cases index with
  | some keys =>
      cases partition <;>
        simp only [placeOf, Option.isSome_none, Option.isSome_some, Bool.false_eq_true,
          if_true, if_false, List.cons_append, List.nil_append, List.compare_cons_cons,
          Ordering.then_eq_eq] at equal
      · exact ⟨equal.2.2.1, equal.2.2.2.1⟩
      · exact ⟨equal.2.1, equal.2.2.1⟩
  | none =>
      change table.primaryKey left = _ at leftKeyed
      change table.primaryKey right = _ at rightKeyed
      rw [leftFiled] at leftKeyed
      rw [rightFiled] at rightKeyed
      cases leftKeyed
      cases rightKeyed
      cases partition with
      | none =>
          simp only [placeOf, Option.isSome_none, Bool.false_eq_true,
            if_false, List.cons_append, List.nil_append, List.compare_cons_cons,
            Ordering.then_eq_eq] at equal
          exact ⟨equal.1, equal.2.1⟩
      | some value =>
          simp only [placeOf, Option.isSome_none, Option.isSome_some, Bool.false_eq_true,
            if_true, if_false, List.cons_append, List.nil_append, List.compare_cons_cons,
            Ordering.then_eq_eq] at equal
          refine ⟨?_, equal.1⟩
          exact
            Std.TransCmp.eq_trans (Std.OrientedCmp.eq_symm (leftPartition value rfl))
              (rightPartition value rfl)

/-- In the table itself, the key of an item makes its position. -/
theorem position?_of_table
    {key : PrimaryKey}
    (ofTable : view.index = none)
    (keyed : view.table.primaryKey item = .ok key) :
    view.position? item = some (view.placeOf key key) := by
  refine position?_eq_some_iff.mpr ⟨key, key, ?_, keyed, rfl⟩
  rw [schema, ofTable]
  exact keyed

/-- In the table itself, items with one key have one position. -/
theorem compare_placeOf_of_isSame
    {left right : PrimaryKey}
    (ofTable : view.index = none)
    (same : left.isSame right) :
    compare (view.placeOf left left) (view.placeOf right right) = .eq := by
  rcases PrimaryKey.isSame_iff.mp same with ⟨partitions, sorts⟩
  change compare left.partition right.partition = .eq at partitions
  change compare left.sort right.sort = .eq at sorts
  cases asked : view.partition <;>
    simp [placeOf, ofTable, asked, List.compare_cons_cons, partitions, sorts]

/-! ## Keys to go on from -/

/-- The key to go on from agrees with its item on the keys of the table and of the
index. -/
theorem find?_resumptionKey
    {name : String}
    (isKey : view.table.isKey name ∨ view.schema.isKey name) :
    (view.resumptionKey item).find? name = item.find? name := by
  rcases view with ⟨table, index, partition, sort⟩
  cases index with
  | none =>
      have isTableKey : table.isKey name := isKey.elim id id
      simp [resumptionKey, Storage.resumptionKey, Storage.create, KeySchema.find?_copyKey,
        NameMap.find?_empty, isTableKey]
  | some keys =>
      have isSomeKey : table.isKey name ∨ keys.isKey name := isKey
      simp only [resumptionKey, Storage.resumptionKey, Storage.create, KeySchema.find?_copyKey,
        NameMap.find?_empty, Option.or_none]
      rcases isSomeKey with isKey | isKey <;> cases item.find? name <;> simp [isKey]

/-- The key to go on from has the position of its item. -/
theorem position?_resumptionKey :
    view.position? (view.resumptionKey item) = view.position? item := by
  have tableKey :
      view.table.primaryKey (view.resumptionKey item) = view.table.primaryKey item :=
    KeySchema.primaryKey_congr fun name isKey => find?_resumptionKey (.inl isKey)
  have viewKey :
      view.schema.primaryKey (view.resumptionKey item) = view.schema.primaryKey item :=
    KeySchema.primaryKey_congr fun name isKey => find?_resumptionKey (.inr isKey)
  simp only [position?, Storage.position?, Storage.create, tableKey, viewKey]

theorem resumptionKey_not_isEmpty
    (placed : view.position? item = some place) :
    (view.resumptionKey item).isEmpty = false := by
  rcases position?_eq_some_iff.mp placed with ⟨-, key, -, keyed, -⟩
  have present := KeySchema.find?_partition_of_primaryKey keyed
  have isKey : view.table.isKey view.table.partition.name :=
    KeySchema.isKey_of_mem (by simp [KeySchema.attributes])
  rw [← find?_resumptionKey (.inl isKey), NameMap.find?_isSome_iff] at present
  rw [NameMap.isEmpty, List.isEmpty_eq_false_iff]
  exact List.ne_nil_of_mem present

end ReadView

end ItemTable
