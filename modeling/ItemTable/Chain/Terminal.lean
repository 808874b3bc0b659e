import ItemTable.Chain.State
import ItemTable.Config
import ItemTable.Service.Paging

/-!
# Running chains

A chain runs against a table: it becomes the document of an operation, which is
sent to the service of the table.  Reads begin at the cursor of the chain and
leave the cursor behind what they have read, so that the chain can go on.
-/

namespace ItemTable

/-- A table that a service holds, with the defaults of its chains. -/
structure Table (σ : Type) where
  service : TableService σ
  name : String
  consistent : Bool
  capacity : CapacityDetail

namespace Table

variable {σ : Type}

/-- A table without defaults of its own. -/
def ofName (service : TableService σ) (name : String) : Table σ where
  service := service
  name := name
  consistent := false
  capacity := .none

/-- The table with the defaults of a configuration. -/
def withConfig (table : Table σ) (config : Config) : Table σ :=
  { table with consistent := config.consistent, capacity := config.capacity }

/-- The table that a configuration names. -/
def ofConfig? (service : TableService σ) (config : Config) : Option (Table σ) :=
  config.tableName.map fun name => (ofName service name).withConfig config

/-- A new chain. -/
def chain (table : Table σ) : ChainState :=
  { ChainState.start with consistent := table.consistent, capacity := table.capacity }

/-- The compiled document of a chain, which is not sent. -/
def compile (table : Table σ) (chain : ChainState) (operation : Operation) :
    Except ChainError Document := do
  let document ← chain.document table.name operation none
  match document.compile with
  | .ok compiled => return compiled
  | .error fault => .error (.invalidKeyCondition fault)

/-! ## Single items -/

/-- The item with the key of the chain, if there is one. -/
def getOptional (table : Table σ) (chain : ChainState) (state : σ) :
    Except ChainError (Option Item) × σ :=
  match chain.document table.name .getItem none with
  | .error error => (.error error, state)
  | .ok document =>
      let (result, _, state) := table.service.getItem document state
      (result, state)

/-- The item with the key of the chain. -/
def get (table : Table σ) (chain : ChainState) (state : σ) : Except ChainError Item × σ :=
  match table.getOptional chain state with
  | (.error error, state) => (.error error, state)
  | (.ok none, state) => (.error (.notFound table.name), state)
  | (.ok (some item), state) => (.ok item, state)

/-- Store an item under the key of the chain, which goes before the attributes
of the item. -/
def put (table : Table σ) (chain : ChainState) (item : Item) (state : σ) :
    Except ChainError Unit × σ :=
  match chain.document table.name .putItem none with
  | .error error => (.error error, state)
  | .ok document =>
      let (result, _, state) :=
        table.service.putItem { document with item := item.extend document.item } state
      (result, state)

/-- Delete the item with the key of the chain. -/
def delete (table : Table σ) (chain : ChainState) (state : σ) : Except ChainError Unit × σ :=
  match chain.document table.name .deleteItem none with
  | .error error => (.error error, state)
  | .ok document =>
      let (result, _, state) := table.service.deleteItem document state
      (result, state)

/-! ## Pages -/

/-- The read of a chain: a query if it has a key condition, otherwise a scan. -/
def readKind (chain : ChainState) : ReadKind :=
  if chain.keyCondition.isSome then .query else .scan

/-- The read in progress that a chain is. -/
def paginator
    (table : Table σ)
    (chain : ChainState)
    (kind : ReadKind)
    (select : Option Select) :
    Except ChainError Paginator := do
  let document ← chain.document table.name kind.operation select
  return { kind, document, cursor := chain.cursor }

/-- Fetch one page of a read. -/
def readPage
    (table : Table σ)
    (chain : ChainState)
    (kind : ReadKind)
    (select : Option Select)
    (state : σ) :
    Except ChainError Page × ChainState × σ :=
  match table.paginator chain kind select with
  | .error error => (.error error, chain, state)
  | .ok paginator =>
      let (page, paginator, state) := paginator.nextPage table.service state
      (page, chain.withCursor paginator.cursor, state)

/-- The items of one page of a read. -/
def readItems
    (table : Table σ)
    (chain : ChainState)
    (kind : ReadKind)
    (state : σ) :
    Except ChainError (List Item) × ChainState × σ :=
  let (page, chain, state) := table.readPage chain kind none state
  (page.map Page.items, chain, state)

/-- One page of a scan. -/
def scan (table : Table σ) (chain : ChainState) (state : σ) :
    Except ChainError (List Item) × ChainState × σ :=
  table.readItems chain .scan state

/-- One page of a query. -/
def query (table : Table σ) (chain : ChainState) (state : σ) :
    Except ChainError (List Item) × ChainState × σ :=
  table.readItems chain .query state

/-- One page of the read that the chain is. -/
def run (table : Table σ) (chain : ChainState) (state : σ) :
    Except ChainError (List Item) × ChainState × σ :=
  table.readItems chain (readKind chain) state

/-- The number of items on one page of the read that the chain is. -/
def count (table : Table σ) (chain : ChainState) (state : σ) :
    Except ChainError Nat × ChainState × σ :=
  let (page, chain, state) := table.readPage chain (readKind chain) (some .count) state
  (page.map Page.count, chain, state)

/-- The remaining pages of the read that the chain is, as many as wanted. -/
def pages (table : Table σ) (chain : ChainState) (wanted : Option Nat) (state : σ) :
    Except ChainError (List (Except ChainError Page)) × ChainState × σ :=
  match table.paginator chain (readKind chain) none with
  | .error error => (.error error, chain, state)
  | .ok paginator =>
      let wanted := wanted.getD (table.service.pageBound state)
      let (pages, paginator, state) := paginator.stream table.service wanted state
      (.ok pages, chain.withCursor paginator.cursor, state)

/-! ## All pages -/

/-- Read all remaining pages of a chain. -/
def readAll
    {α : Type}
    (table : Table σ)
    (chain : ChainState)
    (kind : ReadKind)
    (select : Option Select)
    (read : TableService σ → Nat → Paginator → σ → Drained α × Paginator × σ)
    (state : σ) :
    Drained α × ChainState × σ :=
  match table.paginator chain kind select with
  | .error error => (.failed error, chain, state)
  | .ok paginator =>
      let (result, paginator, state) :=
        read table.service (table.service.pageBound state) paginator state
      (result, chain.withCursor paginator.cursor, state)

/-- The items of all remaining pages of a scan. -/
def scanAll (table : Table σ) (chain : ChainState) (state : σ) :
    Drained (List Item) × ChainState × σ :=
  table.readAll chain .scan none Paginator.collectAll state

/-- The items of all remaining pages of a query. -/
def queryAll (table : Table σ) (chain : ChainState) (state : σ) :
    Drained (List Item) × ChainState × σ :=
  table.readAll chain .query none Paginator.collectAll state

/-- The items of all remaining pages of the read that the chain is. -/
def runAll (table : Table σ) (chain : ChainState) (state : σ) :
    Drained (List Item) × ChainState × σ :=
  table.readAll chain (readKind chain) none Paginator.collectAll state

/-- The number of items on all remaining pages of the read that the chain is. -/
def countAll (table : Table σ) (chain : ChainState) (state : σ) :
    Drained Nat × ChainState × σ :=
  table.readAll chain (readKind chain) (some .count) Paginator.countAll state

end Table

end ItemTable
