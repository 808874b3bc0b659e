import ItemTable.Proofs.Memory.Reachability
import ItemTable.Proofs.Storage.Alike

/-!
# Memories that answer alike

A request sees nothing of a memory but what a table of it answers.  Memories whose
tables are alike give the same answers to all reads and all writes, and are alike
after each write.
-/

namespace ItemTable

namespace Storage.Alike

variable {left right : Storage}

theorem putIf_eq
    {ε : Type}
    (alike : left.Alike right)
    (item : Item)
    (check : Option Item → Except ε Unit) :
    (left.putIf item check).1 = (right.putIf item check).1 ∧
      (left.putIf item check).2.Alike (right.putIf item check).2 := by
  rcases alike.write_eq (.put item check) with ⟨same, next⟩
  rw [write, write, Answer.put.injEq] at same
  exact ⟨eq_of_heq same.2, next⟩

theorem deleteIf_eq
    {ε : Type}
    (alike : left.Alike right)
    (key : PrimaryKey)
    (check : Option Item → Except ε Unit) :
    (left.deleteIf key check).1 = (right.deleteIf key check).1 ∧
      (left.deleteIf key check).2.Alike (right.deleteIf key check).2 := by
  rcases alike.write_eq (.delete key check) with ⟨same, next⟩
  rw [write, write, Answer.delete.injEq] at same
  exact ⟨eq_of_heq same.2, next⟩

theorem schemaFor_eq
    (alike : left.Alike right)
    (index : Option String) :
    left.schemaFor index = right.schemaFor index := by
  cases index with
  | none => exact congrArg Except.ok alike.schema
  | some name =>
      rw [schemaFor, schemaFor, alike.indexes]

end Storage.Alike

namespace Memory

/-- Under each name stand tables that are alike, or none. -/
def Alike (left right : Memory) : Prop :=
  ∀ name, Option.Rel Storage.Alike (left.tables.find? name) (right.tables.find? name)

variable {memory left right : Memory} {name : String} {before after : Storage}

theorem Reachable.alike (reachable : memory.Reachable) : memory.Alike memory := by
  intro name
  cases found : memory.tables.find? name with
  | none => exact .none
  | some storage => exact .some (.refl (reachable.ofReachable name storage found).sound)

/-- A table may be replaced by one that is alike. -/
theorem Reachable.setTable_alike
    (reachable : memory.Reachable)
    (found : memory.tables.find? name = some before)
    (tables : after.Alike before) :
    (memory.setTable name after).Alike memory := by
  intro other
  rw [setTable, NameMap.find?_insert]
  by_cases same : other = name
  · rw [if_pos same, same, found]
    exact .some tables
  · rw [if_neg same]
    exact reachable.alike other

namespace Alike

theorem setTable
    (alike : left.Alike right)
    (name : String)
    (tables : before.Alike after) :
    (left.setTable name before).Alike (right.setTable name after) := by
  intro other
  rw [Memory.setTable, Memory.setTable, NameMap.find?_insert, NameMap.find?_insert]
  split
  · exact .some tables
  · exact alike other

theorem table_cases (alike : left.Alike right) (name : String) :
    (left.table name = .error (unknownTable name) ∧
        right.table name = .error (unknownTable name)) ∨
      ∃ before after,
        left.table name = .ok before ∧ right.table name = .ok after ∧ before.Alike after := by
  have tables := alike name
  rw [table, table]
  revert tables
  cases left.tables.find? name <;> cases right.tables.find? name <;> intro tables
  case none.none => exact .inl ⟨rfl, rfl⟩
  case some.some before after =>
    cases tables with
    | some tables => exact .inr ⟨before, after, rfl, rfl, tables⟩
  all_goals cases tables

/-! ## Reads -/

theorem itemCount_eq
    (alike : left.Alike right)
    (name : String) :
    left.itemCount name = right.itemCount name := by
  rw [itemCount, itemCount]
  rcases alike.table_cases name with ⟨first, second⟩ | ⟨before, after, first, second, tables⟩
  · rw [first, second]
  · rw [first, second]
    exact congrArg Except.ok tables.itemCount_eq

theorem get_eq
    (alike : left.Alike right)
    (request : GetRequest) :
    get request left = get request right := by
  unfold get
  rcases alike.table_cases request.tableName with
    ⟨first, second⟩ | ⟨before, after, first, second, tables⟩
  · rw [first, second]
  · simp only [first, second, ok_bind, tables.schema, tables.item?]

theorem query_eq
    (alike : left.Alike right)
    (request : QueryRequest) :
    query request left = query request right := by
  unfold query
  rcases alike.table_cases request.tableName with
    ⟨first, second⟩ | ⟨before, after, first, second, tables⟩
  · rw [first, second]
  · simp only [first, second, ok_bind, tables.schemaFor_eq, tables.read_eq]

theorem scan_eq
    (alike : left.Alike right)
    (request : ScanRequest) :
    scan request left = scan request right := by
  unfold scan
  rcases alike.table_cases request.tableName with
    ⟨first, second⟩ | ⟨before, after, first, second, tables⟩
  · rw [first, second]
  · simp only [first, second, ok_bind, tables.read_eq]

/-! ## Writes -/

theorem put_eq
    (alike : left.Alike right)
    (request : PutRequest) :
    (put request left).1 = (put request right).1 ∧
      (put request left).2.Alike (put request right).2 := by
  rw [put, put]
  rcases alike.table_cases request.tableName with
    ⟨first, second⟩ | ⟨before, after, first, second, tables⟩
  · rw [first, second]
    exact ⟨rfl, alike⟩
  · rw [first, second]
    simp only [ok_bind]
    cases writeCondition request.names request.values request.condition with
    | error error => exact ⟨rfl, alike⟩
    | ok condition =>
        rcases tables.putIf_eq request.item (check condition) with ⟨same, next⟩
        have nextAlike := alike.setTable request.tableName next
        simp only [ok_bind, pure, Except.pure, same]
        split <;> exact ⟨rfl, nextAlike⟩

theorem delete_eq
    (alike : left.Alike right)
    (request : DeleteRequest) :
    (delete request left).1 = (delete request right).1 ∧
      (delete request left).2.Alike (delete request right).2 := by
  rw [delete, delete]
  rcases alike.table_cases request.tableName with
    ⟨first, second⟩ | ⟨before, after, first, second, tables⟩
  · rw [first, second]
    exact ⟨rfl, alike⟩
  · rw [first, second]
    simp only [ok_bind, tables.schema]
    cases orKeyError (after.schema.exactKey request.key) with
    | error error => exact ⟨rfl, alike⟩
    | ok key =>
        simp only [ok_bind]
        cases writeCondition request.names request.values request.condition with
        | error error => exact ⟨rfl, alike⟩
        | ok condition =>
            rcases tables.deleteIf_eq key (check condition) with ⟨same, next⟩
            have nextAlike := alike.setTable request.tableName next
            simp only [ok_bind, pure, Except.pure, same]
            split <;> exact ⟨rfl, nextAlike⟩

end Alike

end Memory

end ItemTable
