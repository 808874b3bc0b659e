import ItemTable.Number.Natural
import ItemTable.ServiceError
import ItemTable.Storage.Read

/-!
# Tables in memory

Named tables, which can be created, given indexes and dropped.
-/

namespace ItemTable

/-- Tables by their names. -/
structure Memory where
  tables : NameMap Storage

namespace Memory

/-- No tables. -/
def start : Memory :=
  ⟨∅⟩

/-- The error for a table that does not exist. -/
def unknownTable (name : String) : ServiceError :=
  .notFound ("Requested resource not found: Table: " ++ name ++ " not found")

/-- The table with a name. -/
def table (memory : Memory) (name : String) : Except ServiceError Storage :=
  match memory.tables.find? name with
  | some table => .ok table
  | none => .error (unknownTable name)

/-- Put a table in the place of the one with its name. -/
def setTable (memory : Memory) (name : String) (table : Storage) : Memory :=
  ⟨memory.tables.insert name table⟩

/-- Create a table. -/
def createTable
    (memory : Memory)
    (name : String)
    (schema : KeySchema) :
    Except ServiceError Unit × Memory :=
  if memory.tables.contains name then
    (.error (.inUse ("Table already exists: " ++ name)), memory)
  else
    (.ok (), memory.setTable name (.create schema))

/-- Give an index to a table. -/
def createIndex
    (memory : Memory)
    (name index : String)
    (schema : KeySchema) :
    Except ServiceError Unit × Memory :=
  match memory.table name with
  | .error error => (.error error, memory)
  | .ok table =>
      match table.addIndex? index schema with
      | none => (.error (.inUse ("Index already exists: " ++ index)), memory)
      | some table => (.ok (), memory.setTable name table)

/-- Drop a table with all its items. -/
def deleteTable (memory : Memory) (name : String) : Except ServiceError Unit × Memory :=
  if memory.tables.contains name then
    (.ok (), ⟨memory.tables.erase name⟩)
  else
    (.error (unknownTable name), memory)

/-- The number of items of a table. -/
def itemCount (memory : Memory) (name : String) : Except ServiceError Nat :=
  (memory.table name).map Storage.itemCount

/-- The number of items of all tables. -/
def totalCount (memory : Memory) : Nat :=
  total (memory.tables.toList.map fun (_, table) => table.itemCount)

end Memory

end ItemTable
