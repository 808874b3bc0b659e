import ItemTable.Proofs.Document.Restarting
import ItemTable.Proofs.Memory.Listing
import ItemTable.Proofs.Memory.Reachability
import ItemTable.Proofs.Storage.Pages
import Mathlib.Algebra.Group.Nat.Defs

/-!
# The counts of pages

A reply says how many items a page has, before and after the filter, and it names a key
to go on from only if the page is full.  A reply to a read that only counts says the
same as one with the items.
-/

namespace ItemTable

/-- The reply without its items. -/
def PageReply.counted (reply : PageReply) : PageReply :=
  { reply with items := [] }

/-- A page of a read that asks for the items or only for their number, at most so many
before the filter. -/
structure Page.Counts (page : Page) (limit : Option Nat) (select : Option Select) : Prop where
  found : page.count ≤ page.scannedCount
  limited : ∀ most ∈ limit, page.scannedCount ≤ most
  /-- A key to go on from is named exactly if the page is full. -/
  goesOn : page.lastKey.isEmpty = false ↔ ∃ most ∈ limit, page.scannedCount = most
  items : if select = some .count then page.items = [] else page.count = page.items.length

/-! ## Pages of tables -/

/-- A page of a table has no more items than its limit, and names a key to go on from
exactly if it has as many. -/
theorem Storage.Sound.page_facts
    {storage : Storage}
    {request : ReadRequest}
    {page : ReadResult}
    (sound : storage.Sound)
    (positive : ∀ limit ∈ request.limit, 0 < limit)
    (answered : storage.read request = .ok page) :
    page.items.length ≤ storage.items.length ∧
      (∀ limit ∈ request.limit, page.items.length ≤ limit) ∧
      (page.lastKey.isEmpty = false ↔ ∃ limit ∈ request.limit, page.items.length = limit) := by
  rcases exists_read_iff_accepts.mp ⟨page, answered⟩ with ⟨view, seen, starts⟩
  have all := remaining_length_le storage view request.forward request.start
  cases limited : request.limit with
  | none =>
      have whole := read_eq seen starts
      rw [answered, limited] at whole
      cases whole
      refine ⟨?_, ?_, ?_⟩
      · rwa [ReadView.page, List.length_map]
      · rintro _ ⟨⟩
      · constructor
        · rintro ⟨⟩
        · rintro ⟨_, ⟨⟩, -⟩
  | some limit =>
      have isPositive := positive limit limited
      rcases exists_cut sound seen starts limited isPositive with ⟨other, same, cut⟩
      cases answered.symm.trans same
      cases cut with
      | last short items ends =>
          have length : page.items.length < limit := by rwa [items, List.length_map]
          refine ⟨?_, ?_, ?_⟩
          · rwa [items, List.length_map]
          · rintro _ ⟨⟩
            exact Nat.le_of_lt length
          · rw [ends]
            constructor
            · rintro ⟨⟩
            · rintro ⟨_, ⟨⟩, full⟩
              exact absurd full (Nat.ne_of_lt length)
      | @full before after last split length items more placed =>
          have full : page.items.length = limit := by
            rw [items, List.length_map, List.length_append, List.length_singleton, length]
          refine ⟨?_, ?_, ?_⟩
          · rw [split, List.length_append, List.length_cons] at all
            omega
          · rintro _ ⟨⟩
            exact Nat.le_of_eq full
          · exact ⟨fun _ => ⟨limit, rfl, full⟩, fun _ => more⟩

namespace Memory

/-! ## Replies -/

theorem sublist_of_matching
    {condition : Condition}
    {items kept : List Item}
    (matched : matching condition items = .ok kept) :
    kept.Sublist items := by
  induction items generalizing kept with
  | nil =>
      cases matched
      exact List.Sublist.refl []
  | cons item items ih =>
      rcases bind_eq_ok.mp matched with ⟨holds, -, others⟩
      rcases bind_eq_ok.mp others with ⟨rest, matchedRest, ⟨⟩⟩
      have inside := ih matchedRest
      cases holds with
      | true => exact inside.cons_cons item
      | false => exact inside.cons item

/-- A filter keeps some of the items. -/
theorem sublist_of_keepItems
    {filter : Option Condition}
    {items kept : List Item}
    (done : keepItems filter items = .ok kept) :
    kept.Sublist items := by
  cases filter with
  | none =>
      cases done
      exact List.Sublist.refl items
  | some condition => exact sublist_of_matching done

theorem countOf_eq {items : List Item} (few : items.length < 2 ^ 31) :
    countOf items = items.length :=
  if_pos (Nat.le_of_lt_succ few)

section

variable
    {request : ScanRequest}
    {filter : Option Condition}
    {projection : Option (List Path)}
    {result : ReadResult}
    {reply : PageReply}

/-- A reply that was made from few items counts them. -/
theorem pageReply_counts
    {limit : Option Nat}
    (few : result.items.length < 2 ^ 31)
    (limited : ∀ most ∈ limit, result.items.length ≤ most)
    (goesOn : result.lastKey.isEmpty = false ↔ ∃ most ∈ limit, result.items.length = most)
    (replied : pageReply request filter projection result = .ok reply) :
    (Page.ofReply reply).Counts limit request.select := by
  rcases bind_eq_ok.mp replied with ⟨kept, done, ⟨⟩⟩
  have fewer := (sublist_of_keepItems done).length_le
  have fewKept : kept.length < 2 ^ 31 := Nat.lt_of_le_of_lt fewer few
  have scanned : (countOf result.items).toNat = result.items.length := by
    rw [countOf_eq few, Int.toNat_natCast]
  have found : (countOf kept).toNat = kept.length := by
    rw [countOf_eq fewKept, Int.toNat_natCast]
  constructor
  · change (countOf kept).toNat ≤ (countOf result.items).toNat
    rwa [scanned, found]
  · change ∀ most ∈ limit, (countOf result.items).toNat ≤ most
    rwa [scanned]
  · change _ ↔ ∃ most ∈ limit, (countOf result.items).toNat = most
    rwa [scanned]
  · split
    · rfl
    · change (countOf kept).toNat = (kept.map (present projection)).length
      rw [List.length_map, found]

/-- A reply to a read that only counts has no items, but is the same otherwise. -/
theorem pageReply_counting
    {terms other : ReadTerms}
    {document counting : Document}
    (sameTable : counting.tableName = document.tableName)
    (sameCapacity : counting.capacity = document.capacity)
    (sameConsistency : counting.consistent = document.consistent)
    (counts : counting.select = some .count)
    (unseen : Option (List Path)) :
    pageReply (pageRequest (other.write counting)) filter unseen result =
      (pageReply (pageRequest (terms.write document)) filter projection result).map
        PageReply.counted := by
  rw [pageReply, pageReply]
  cases keepItems filter result.items with
  | error error => rfl
  | ok kept =>
      simp only [pageRequest, ReadTerms.write, sameTable, sameCapacity, sameConsistency, counts]
      rfl

end

/-! ## Answers -/

/-- What is listed depends on the key to go on from as a read of the table does. -/
theorem listing_cases
    (storage : Storage)
    (document : Document)
    (keyCondition : Option Condition) :
    (∃ error, ∀ key, listing storage (document.withStart key) keyCondition = .error error) ∨
      ∃ asked : ReadRequest,
        asked.limit = document.limit ∧
          ∀ key, listing storage (document.withStart key) keyCondition =
            orKeyError (storage.read { asked with start := key }) := by
  cases keyCondition with
  | none => exact .inr ⟨readRequest none document, rfl, fun _ => rfl⟩
  | some condition =>
      have sameIndex (key : Item) : (document.withStart key).index = document.index := rfl
      cases schemaFound : orKeyError (storage.schemaFor document.index) with
      | error error =>
          refine .inl ⟨error, fun key => ?_⟩
          rw [listing, sameIndex, schemaFound]
          rfl
      | ok schema =>
          cases selected : schema.selection condition with
          | error fault =>
              refine .inl ⟨.validation fault.message, fun key => ?_⟩
              rw [listing, sameIndex, schemaFound, ok_bind, selected]
          | ok selection =>
              refine .inr ⟨readRequest (some selection) document, rfl, fun key => ?_⟩
              rw [listing, sameIndex, schemaFound, ok_bind, selected]
              rfl

end Memory

namespace ReadTerms

open Memory (listing orKeyError pageReply pageRequest)

variable {memory : Memory} {terms : ReadTerms} {document : Document} {reply : PageReply}

/-- The pages of a document are pages that one table lists. -/
structure Lists
    (terms : ReadTerms)
    (document : Document)
    (memory : Memory)
    (storage : Storage)
    (asked : ReadRequest) : Prop where
  found : memory.table document.tableName = .ok storage
  limit : asked.limit = document.limit
  page : ∀ key reply,
    terms.answer (document.withStart key) memory = .ok reply →
      ∃ result,
        storage.read { asked with start := key } = .ok result ∧
          pageReply (pageRequest (terms.write document)) terms.filter terms.shown result =
            .ok reply

/-- A document has no pages, or one table lists them all. -/
theorem fails_or_lists (terms : ReadTerms) (document : Document) (memory : Memory) :
    (∀ key, ∃ error, terms.answer (document.withStart key) memory = .error error) ∨
      ∃ storage asked, terms.Lists document memory storage asked := by
  have steps (key : Item) :
      terms.answer (document.withStart key) memory = (do
        let storage ← memory.table document.tableName
        terms.reading
        let result ← listing storage (document.withStart key) terms.keyCondition
        pageReply (pageRequest (terms.write document)) terms.filter terms.shown result) := rfl
  cases found : memory.table document.tableName with
  | error error =>
      refine .inl fun key => ⟨error, ?_⟩
      rw [steps, found]
      rfl
  | ok storage =>
      rcases Memory.listing_cases storage document terms.keyCondition with
        ⟨error, fails⟩ | ⟨asked, limit, lists⟩
      · refine .inl fun key => ?_
        rw [steps, found, ok_bind]
        cases terms.reading with
        | error error => exact ⟨error, rfl⟩
        | ok _ =>
            refine ⟨error, ?_⟩
            rw [ok_bind, fails key]
            rfl
      · refine .inr ⟨storage, asked, found, limit, ?_⟩
        intro key reply answered
        rw [steps, found, ok_bind] at answered
        rcases bind_eq_ok.mp answered with ⟨_, -, listed⟩
        rcases bind_eq_ok.mp listed with ⟨result, isListed, replied⟩
        rw [lists key] at isListed
        refine ⟨result, ?_, replied⟩
        cases read : storage.read { asked with start := key } with
        | error error =>
            rw [read] at isListed
            cases isListed
        | ok page =>
            rw [read] at isListed
            cases isListed
            rfl

/-- A reply counts the items of its page. -/
theorem Lists.counts
    {storage : Storage}
    {asked : ReadRequest}
    {key : Item}
    (lists : terms.Lists document memory storage asked)
    (reachable : memory.Reachable)
    (few : memory.totalCount < 2 ^ 31)
    (positive : ∀ limit ∈ document.limit, 0 < limit)
    (answered : terms.answer (document.withStart key) memory = .ok reply) :
    (Page.ofReply reply).Counts document.limit document.select := by
  rcases lists.page key reply answered with ⟨result, read, replied⟩
  have sameLimit : ({ asked with start := key } : ReadRequest).limit = document.limit :=
    lists.limit
  have isPositive : ∀ limit ∈ ({ asked with start := key } : ReadRequest).limit, 0 < limit := by
    rwa [sameLimit]
  rcases (reachable.sound lists.found).page_facts isPositive read with ⟨within, limited, goesOn⟩
  rw [sameLimit] at limited goesOn
  have fewer : result.items.length < 2 ^ 31 := by
    have all := Memory.length_items_le_totalCount lists.found
    omega
  exact Memory.pageReply_counts fewer limited goesOn replied

end ReadTerms

end ItemTable
