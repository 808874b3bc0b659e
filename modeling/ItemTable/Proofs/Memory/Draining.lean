import ItemTable.Proofs.Memory.Answers
import ItemTable.Proofs.Storage.Pages

/-!
# Reading all pages from a memory

A paginator sends the document of a read for one page after the other and leaves
the memory as it is.  Its pages are those of a run over the table, each presented
on its own.  So the items of all pages are what the filter keeps of all that the
table lists, and if the filter cannot be evaluated on one of these items, the read
fails as the filter does on the first such item.
-/

namespace ItemTable

open Memory (keepItems present Serves Presents readRequest)

/-! ## What all pages come to -/

theorem keepItems_append
    (filter : Option Condition)
    (first second : List Item) :
    keepItems filter (first ++ second) = do
      let kept ← keepItems filter first
      let others ← keepItems filter second
      return kept ++ others := by
  cases filter with
  | none => rfl
  | some condition =>
      change Memory.matching condition (first ++ second) =
        (Memory.matching condition first >>= fun kept =>
          Memory.matching condition second >>= fun others => .ok (kept ++ others))
      induction first with
      | nil =>
          change Memory.matching condition second =
            (Memory.matching condition second >>= fun others => .ok others)
          cases Memory.matching condition second <;> rfl
      | cons item items ih =>
          rw [List.cons_append, Memory.matching, Memory.matching, ih]
          cases Memory.orInvalid "FilterExpression" (condition.holds item) with
          | error error => rfl
          | ok holds =>
              cases Memory.matching condition items with
              | error error => rfl
              | ok kept =>
                  cases Memory.matching condition second with
                  | error error => rfl
                  | ok others => cases holds <;> rfl

/-- The items of all pages if the table lists the given items. -/
def ReadTerms.outcome (terms : ReadTerms) (items : List Item) : Drained (List Item) :=
  match keepItems terms.filter items with
  | .ok kept => .finished (kept.map (present terms.shown))
  | .error error => .failed (.ofService error)

variable {terms : ReadTerms} {items others kept : List Item}

theorem ReadTerms.outcome_append
    (first : keepItems terms.filter items = .ok kept) :
    terms.outcome (items ++ others) =
      (terms.outcome others).map (kept.map (present terms.shown) ++ ·) := by
  unfold outcome
  rw [keepItems_append, first, ok_bind]
  cases keepItems terms.filter others with
  | error error => rfl
  | ok more => exact congrArg Drained.finished List.map_append

theorem ReadTerms.outcome_append_error
    {error : ServiceError}
    (first : keepItems terms.filter items = .error error) :
    terms.outcome (items ++ others) = .failed (.ofService error) := by
  rw [outcome]
  rw [keepItems_append, first]
  rfl

/-! ## One page -/

namespace Paginator

variable
    {memory : Memory}
    {storage : Storage}
    {selection : Option KeySelection}
    {paginator : Paginator}
    {result : ReadResult}

/-- The document that is sent for the next page. -/
def asking (paginator : Paginator) : Document :=
  { paginator.document with start := paginator.cursor.start }

/-- A read of a table that goes on with the next page. -/
structure Underway
    (memory : Memory)
    (storage : Storage)
    (terms : ReadTerms)
    (selection : Option KeySelection)
    (paginator : Paginator) : Prop where
  kind : paginator.kind = terms.kind
  serves : memory.Serves storage terms selection paginator.asking
  compiled : paginator.asking.compile = .ok (terms.write paginator.asking)
  unconditional : paginator.document.condition = none

/-- The paginator behind a page. -/
def behind (paginator : Paginator) (terms : ReadTerms) (page : Page) : Paginator :=
  { paginator with
    document := terms.write paginator.asking
    cursor := .ofLastKey page.lastKey }

/-- Behind a page the read is still under way. -/
theorem Underway.behind
    (underway : Underway memory storage terms selection paginator)
    (page : Page) :
    Underway memory storage terms selection (paginator.behind terms page) := by
  constructor
  · exact underway.kind
  · rcases underway.serves with ⟨found, valid, selected, ofTable, limited, unselected⟩
    exact ⟨found, valid, selected, ofTable, limited, unselected⟩
  · let next : Document :=
      { paginator.document with start := (paginator.behind terms page).cursor.start }
    have compiled : (terms.write next).compile = .ok (terms.write next) :=
      Document.compile_write underway.unconditional
    exact compiled
  · exact underway.unconditional

/-- The next page presents what the table lists. -/
theorem Underway.nextPage
    (underway : Underway memory storage terms selection paginator)
    (listed : storage.read (readRequest selection paginator.asking) = .ok result) :
    ∃ answer,
      Presents terms result answer ∧
        paginator.nextPage Memory.service memory =
          match answer with
          | .ok page => (.ok page, paginator.behind terms page, memory)
          | .error error =>
              (.error error, { paginator with document := terms.write paginator.asking },
                memory) := by
  rcases underway.serves.readPage underway.compiled listed with ⟨answer, answered, presents⟩
  refine ⟨answer, presents, ?_⟩
  rw [Paginator.nextPage]
  have sent :
      Memory.service.readPage paginator.kind
          { paginator.document with start := paginator.cursor.start } memory =
        (answer, terms.write paginator.asking, memory) := by
    rw [underway.kind]
    exact answered
  simp only [sent]
  cases answer <;> rfl

/-! ## All pages -/

/-- A page that is the last one ends the read. -/
theorem Underway.drain_last
    (underway : Underway memory storage terms selection paginator)
    (listed : storage.read (readRequest selection paginator.asking) = .ok result)
    (last : result.lastKey.isEmpty)
    (bound : Nat) :
    (paginator.drain Memory.service (bound + 1) memory).1.map (·.flatMap Page.items) =
      terms.outcome result.items := by
  rcases underway.nextPage listed with ⟨answer, presents, sent⟩
  rw [ReadTerms.outcome]
  rw [Paginator.drain, sent]
  cases found : keepItems terms.filter result.items with
  | error error =>
      rw [presents.error error found]
      rfl
  | ok kept =>
      rcases presents.page kept found with ⟨page, rfl, items, lastKey⟩
      have ended : (paginator.behind terms page).cursor.hasMore = false := by
        simp only [Paginator.behind, Cursor.ofLastKey, lastKey, last, if_true, Cursor.hasMore]
      simp only [ended, Bool.false_eq_true, if_false, Drained.map, List.flatMap_singleton, items]

/-- A page with more behind it comes before what is behind it. -/
theorem Underway.drain_more
    {bound : Nat}
    (underway : Underway memory storage terms selection paginator)
    (listed : storage.read (readRequest selection paginator.asking) = .ok result)
    (more : result.lastKey.isEmpty = false)
    (rest : ∀ next : Paginator,
      Underway memory storage terms selection next →
      readRequest selection next.asking =
          { readRequest selection paginator.asking with start := result.lastKey } →
      (next.drain Memory.service bound memory).1.map (·.flatMap Page.items) =
        terms.outcome items) :
    (paginator.drain Memory.service (bound + 1) memory).1.map (·.flatMap Page.items) =
      terms.outcome (result.items ++ items) := by
  rcases underway.nextPage listed with ⟨answer, presents, sent⟩
  rw [Paginator.drain, sent]
  cases found : keepItems terms.filter result.items with
  | error error =>
      rw [presents.error error found, ReadTerms.outcome_append_error found]
      rfl
  | ok kept =>
      rcases presents.page kept found with ⟨page, rfl, pageItems, lastKey⟩
      have goesOn : (paginator.behind terms page).cursor = .more result.lastKey := by
        simp only [Paginator.behind, Cursor.ofLastKey, lastKey, more, Bool.false_eq_true, if_false]
      have next := rest (paginator.behind terms page) (underway.behind page) (by
        rw [asking, goesOn]
        rfl)
      rw [ReadTerms.outcome_append found, ← next, ← pageItems]
      simp only [goesOn, Cursor.hasMore, if_true]
      cases ((paginator.behind terms page).drain Memory.service bound memory).1 <;> rfl

/-- The items of all pages are those of a run over the table. -/
theorem Underway.drain_readPages
    {count : Nat}
    {pages : List ReadResult}
    (underway : Underway memory storage terms selection paginator)
    (run :
      storage.readPages (readRequest selection paginator.asking) (List.replicate count []) =
        .ok pages)
    (ends : ∃ last ∈ pages.getLast?, last.lastKey.isEmpty) :
    (paginator.drain Memory.service (count + 1) memory).1.map (·.flatMap Page.items) =
      terms.outcome (pages.flatMap (·.items)) := by
  induction count generalizing paginator pages with
  | zero =>
      rcases bind_eq_ok.mp run with ⟨page, listed, only⟩
      cases only
      rcases ends with ⟨last, isLast, empty⟩
      cases isLast
      rw [List.flatMap_singleton]
      exact underway.drain_last listed empty 0
  | succ count ih =>
      rcases bind_eq_ok.mp run with ⟨page, listed, others⟩
      split at others
      · rename_i empty
        cases others
        rw [List.flatMap_singleton]
        exact underway.drain_last listed empty (count + 1)
      · rename_i present
        rcases bind_eq_ok.mp others with ⟨rest, restRun, whole⟩
        cases whole
        rw [List.flatMap_cons]
        apply underway.drain_more listed (Bool.eq_false_iff.mpr present)
        intro next nextUnderway goesOn
        apply ih nextUnderway
        · rw [goesOn]
          exact restRun
        · rcases ends with ⟨last, isLast, empty⟩
          refine ⟨last, ?_, empty⟩
          cases rest with
          | nil =>
              cases isLast
              exact absurd empty present
          | cons second rest => exact isLast

end Paginator

end ItemTable
