import ItemTable.Cursor
import ItemTable.Number.Natural
import ItemTable.Service.Dispatch

/-!
# Reading page by page

A paginator sends one document again and again, each time with the key behind
which the next page begins.  The first page is always fetched; a read is over
after the first page that names no last key, and after the first error.

The number of pages is up to the service, so the loops are told how many pages
they may fetch and say when there would have been more.
-/

namespace ItemTable

/-- A read in progress. -/
structure Paginator where
  kind : ReadKind
  document : Document
  cursor : Cursor

/-- The result of reading all pages. -/
inductive Drained (α : Type) where
  | finished (result : α)
  | failed (error : ChainError)
  /-- There are more pages than could be fetched. -/
  | unfinished

/-- The result with a function applied to what was read. -/
def Drained.map {α β : Type} (change : α → β) : Drained α → Drained β
  | finished result => finished (change result)
  | failed error => failed error
  | unfinished => unfinished

namespace Paginator

variable {σ : Type}

/-- Fetch a page and move the cursor.  An error leaves the cursor. -/
def nextPage (service : TableService σ) (paginator : Paginator) (state : σ) :
    Except ChainError Page × Paginator × σ :=
  let document := { paginator.document with start := paginator.cursor.start }
  match service.readPage paginator.kind document state with
  | (.error error, document, state) => (.error error, { paginator with document }, state)
  | (.ok page, document, state) =>
      (.ok page, { paginator with document, cursor := .ofLastKey page.lastKey }, state)

/-- Fetch pages one after the other, going on after errors. -/
def nextPages (service : TableService σ) :
    Nat → Paginator → σ → List (Except ChainError Page) × Paginator × σ
  | 0, paginator, state => ([], paginator, state)
  | times + 1, paginator, state =>
      let (page, paginator, state) := paginator.nextPage service state
      let (pages, paginator, state) := nextPages service times paginator state
      (page :: pages, paginator, state)

/-- Fetch all remaining pages. -/
def drain (service : TableService σ) :
    Nat → Paginator → σ → Drained (List Page) × Paginator × σ
  | 0, paginator, state => (.unfinished, paginator, state)
  | bound + 1, paginator, state =>
      match paginator.nextPage service state with
      | (.error error, paginator, state) => (.failed error, paginator, state)
      | (.ok page, paginator, state) =>
          if paginator.cursor.hasMore then
            let (pages, paginator, state) := drain service bound paginator state
            (pages.map (page :: ·), paginator, state)
          else
            (.finished [page], paginator, state)

/-- The items of all remaining pages. -/
def collectAll (service : TableService σ) (bound : Nat) (paginator : Paginator) (state : σ) :
    Drained (List Item) × Paginator × σ :=
  let (pages, paginator, state) := drain service bound paginator state
  (pages.map fun pages => pages.flatMap Page.items, paginator, state)

/-- The sum of the counts of all remaining pages. -/
def countAll (service : TableService σ) (bound : Nat) (paginator : Paginator) (state : σ) :
    Drained Nat × Paginator × σ :=
  let (pages, paginator, state) := drain service bound paginator state
  (pages.map fun pages => total (pages.map Page.count), paginator, state)

/-- The remaining pages, as many as wanted.  An error is the last entry. -/
def stream (service : TableService σ) :
    Nat → Paginator → σ → List (Except ChainError Page) × Paginator × σ
  | 0, paginator, state => ([], paginator, state)
  | wanted + 1, paginator, state =>
      match paginator.nextPage service state with
      | (.error error, paginator, state) => ([.error error], paginator, state)
      | (.ok page, paginator, state) =>
          if paginator.cursor.hasMore then
            let (pages, paginator, state) := stream service wanted paginator state
            (.ok page :: pages, paginator, state)
          else
            ([.ok page], paginator, state)

end Paginator

end ItemTable
