import ItemTable.Chain.Terminal
import ItemTable.Proofs.Service.Recording

/-!
# Calls that run chains

A chain is run by one of several calls: for one item, for a page, for pages one after
the other, or for what all pages come to.  A table whose service notes the requests
that it is sent does the same as before with each of them.
-/

namespace ItemTable

/-! ## The calls -/

/-- A call that runs a chain. -/
inductive Terminal where
  | get
  | getOptional
  | put (item : Item)
  | delete
  | scan
  | query
  | run
  | count
  /-- Pages read one after the other, the first one in any case and so many further
  ones; without a number, all of them. -/
  | pages (further : Option Nat)
  | scanAll
  | queryAll
  | runAll
  | countAll

namespace Terminal

/-- The operation that a call asks for. -/
def operation (chain : ChainState) : Terminal → Operation
  | get | getOptional => .getItem
  | put _ => .putItem
  | delete => .deleteItem
  | scan | scanAll => .scan
  | query | queryAll => .query
  | run | count | pages _ | runAll | countAll => (Table.readKind chain).operation

/-- What a call results in. -/
def Result : Terminal → Type
  | get => Except ChainError Item
  | getOptional => Except ChainError (Option Item)
  | put _ | delete => Except ChainError Unit
  | scan | query | run => Except ChainError (List Item)
  | count => Except ChainError Nat
  | pages _ => Except ChainError (List (Except ChainError Page))
  | scanAll | queryAll | runAll => Drained (List Item)
  | countAll => Drained Nat

/-- Whether there is an error instead of a result. -/
def hasFailed {α : Type} (result : Except ChainError α) : Prop :=
  ∃ error, result = .error error

/-- Whether reading all pages ended with an error. -/
def hasStopped {α : Type} (result : Drained α) : Prop :=
  ∃ error, result = .failed error

/-- Whether a call failed; page by page, whether there is not even a first page. -/
def Fails : (terminal : Terminal) → terminal.Result → Prop
  | get, result => hasFailed result
  | getOptional, result => hasFailed result
  | put _, result => hasFailed result
  | delete, result => hasFailed result
  | scan, result => hasFailed result
  | query, result => hasFailed result
  | run, result => hasFailed result
  | count, result => hasFailed result
  | pages _, result =>
      hasFailed result ∨ ∃ error others, result = .ok (.error error :: others)
  | scanAll, result => hasStopped result
  | queryAll, result => hasStopped result
  | runAll, result => hasStopped result
  | countAll, result => hasStopped result

end Terminal

namespace Table

variable {σ : Type}

/-- Run a chain by a call.  Calls for single items do not move the cursor. -/
def perform
    (table : Table σ)
    (chain : ChainState)
    (state : σ) :
    (terminal : Terminal) → terminal.Result × ChainState × σ
  | .get =>
      let (result, state) := table.get chain state
      (result, chain, state)
  | .getOptional =>
      let (result, state) := table.getOptional chain state
      (result, chain, state)
  | .put item =>
      let (result, state) := table.put chain item state
      (result, chain, state)
  | .delete =>
      let (result, state) := table.delete chain state
      (result, chain, state)
  | .scan => table.scan chain state
  | .query => table.query chain state
  | .run => table.run chain state
  | .count => table.count chain state
  | .pages further => table.pages chain (further.map (· + 1)) state
  | .scanAll => table.scanAll chain state
  | .queryAll => table.queryAll chain state
  | .runAll => table.runAll chain state
  | .countAll => table.countAll chain state

/-- The number of pages that a read lists, if it lists them one after the other. -/
def pageCount
    (table : Table σ)
    (chain : ChainState)
    (kind : ReadKind)
    (select : Option Select)
    (wanted : Nat)
    (state : σ) :
    Nat :=
  match table.paginator chain kind select with
  | .error _ => 0
  | .ok paginator => (paginator.stream table.service wanted state).1.length

/-- The number of pages or writes that a call comes to. -/
def calls (table : Table σ) (chain : ChainState) (state : σ) : Terminal → Nat
  | .pages further =>
      table.pageCount chain (readKind chain) none
        ((further.map (· + 1)).getD (table.service.pageBound state)) state
  | .scanAll => table.pageCount chain .scan none (table.service.pageBound state) state
  | .queryAll => table.pageCount chain .query none (table.service.pageBound state) state
  | .runAll => table.pageCount chain (readKind chain) none (table.service.pageBound state) state
  | .countAll =>
      table.pageCount chain (readKind chain) (some .count) (table.service.pageBound state) state
  | _ => 1

/-- The table whose service notes what it is sent. -/
def recorded (table : Table σ) : Table (σ × List Request) :=
  { table with service := table.service.recorded }

/-! ## Recording changes nothing -/

section

variable (table : Table σ) (chain : ChainState) (state : σ × List Request)

theorem recorded_pageCount
    (kind : ReadKind)
    (select : Option Select)
    (wanted : Nat) :
    table.recorded.pageCount chain kind select wanted state =
      table.pageCount chain kind select wanted state.1 := by
  rw [pageCount, pageCount]
  have same : table.recorded.paginator chain kind select = table.paginator chain kind select :=
    rfl
  rw [same]
  cases table.paginator chain kind select with
  | error error => rfl
  | ok paginator =>
      dsimp only
      rw [← Paginator.forget_stream]
      rfl

theorem recorded_calls (terminal : Terminal) :
    table.recorded.calls chain state terminal = table.calls chain state.1 terminal := by
  cases terminal <;> first | rfl | exact recorded_pageCount table chain state _ _ _

theorem forget_readPage
    (kind : ReadKind)
    (select : Option Select) :
    forget (table.recorded.readPage chain kind select state) =
      table.readPage chain kind select state.1 := by
  rw [readPage, readPage]
  have same : table.recorded.paginator chain kind select = table.paginator chain kind select :=
    rfl
  rw [same]
  cases table.paginator chain kind select with
  | error error => rfl
  | ok paginator =>
      dsimp only
      rw [← Paginator.forget_nextPage]
      rfl

theorem forget_pages (wanted : Option Nat) :
    forget (table.recorded.pages chain wanted state) = table.pages chain wanted state.1 := by
  rw [pages, pages]
  have same : table.recorded.paginator chain (readKind chain) none =
      table.paginator chain (readKind chain) none :=
    rfl
  rw [same]
  cases table.paginator chain (readKind chain) none with
  | error error => rfl
  | ok paginator =>
      dsimp only
      rw [← Paginator.forget_stream]
      rfl

theorem recorded_getOptional :
    table.getOptional chain state.1 =
      ((table.recorded.getOptional chain state).1,
        (table.recorded.getOptional chain state).2.1) := by
  have same : table.recorded.name = table.name := rfl
  rw [getOptional, getOptional, same]
  cases chain.document table.name .getItem none with
  | error error => rfl
  | ok document =>
      dsimp only
      rw [← TableService.forget_getItem]
      rfl

theorem recorded_get :
    table.get chain state.1 =
      ((table.recorded.get chain state).1, (table.recorded.get chain state).2.1) := by
  rw [get, get, recorded_getOptional table chain state]
  rcases table.recorded.getOptional chain state with ⟨error | _ | item, next⟩ <;> rfl

theorem recorded_put (item : Item) :
    table.put chain item state.1 =
      ((table.recorded.put chain item state).1, (table.recorded.put chain item state).2.1) := by
  have same : table.recorded.name = table.name := rfl
  rw [put, put, same]
  cases chain.document table.name .putItem none with
  | error error => rfl
  | ok document =>
      dsimp only
      rw [← TableService.forget_putItem]
      rfl

theorem recorded_delete :
    table.delete chain state.1 =
      ((table.recorded.delete chain state).1, (table.recorded.delete chain state).2.1) := by
  have same : table.recorded.name = table.name := rfl
  rw [delete, delete, same]
  cases chain.document table.name .deleteItem none with
  | error error => rfl
  | ok document =>
      dsimp only
      rw [← TableService.forget_deleteItem]
      rfl

theorem forget_collectAll
    (kind : ReadKind) :
    forget (table.recorded.readAll chain kind none Paginator.collectAll state) =
      table.readAll chain kind none Paginator.collectAll state.1 := by
  rw [readAll, readAll]
  have same : table.recorded.paginator chain kind none = table.paginator chain kind none :=
    rfl
  rw [same]
  cases table.paginator chain kind none with
  | error error => rfl
  | ok paginator =>
      dsimp only
      rw [Paginator.collectAll, Paginator.collectAll, ← Paginator.forget_drain]
      rfl

theorem forget_countAll :
    forget (table.recorded.countAll chain state) = table.countAll chain state.1 := by
  rw [countAll, countAll, readAll, readAll]
  have same : table.recorded.paginator chain (readKind chain) (some .count) =
      table.paginator chain (readKind chain) (some .count) :=
    rfl
  rw [same]
  cases table.paginator chain (readKind chain) (some .count) with
  | error error => rfl
  | ok paginator =>
      dsimp only
      rw [Paginator.countAll, Paginator.countAll, ← Paginator.forget_drain]
      rfl

/-- A call does the same with a recorded table. -/
theorem forget_perform (terminal : Terminal) :
    forget (table.recorded.perform chain state terminal) =
      table.perform chain state.1 terminal := by
  cases terminal with
  | get =>
      rw [perform, perform, recorded_get table chain state]
      rfl
  | getOptional =>
      rw [perform, perform, recorded_getOptional table chain state]
      rfl
  | put item =>
      rw [perform, perform, recorded_put table chain state item]
      rfl
  | delete =>
      rw [perform, perform, recorded_delete table chain state]
      rfl
  | scan =>
      rw [perform, perform, scan, scan, readItems, readItems, ← forget_readPage]
      rfl
  | query =>
      rw [perform, perform, query, query, readItems, readItems, ← forget_readPage]
      rfl
  | run =>
      rw [perform, perform, run, run, readItems, readItems, ← forget_readPage]
      rfl
  | count =>
      rw [perform, perform, count, count, ← forget_readPage]
      rfl
  | pages further => exact forget_pages table chain state _
  | scanAll => exact forget_collectAll table chain state .scan
  | queryAll => exact forget_collectAll table chain state .query
  | runAll => exact forget_collectAll table chain state (readKind chain)
  | countAll => exact forget_countAll table chain state

end

end Table

end ItemTable
