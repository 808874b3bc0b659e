import ItemTable.Proofs.Memory.Listing
import ItemTable.Service.Paging

/-!
# Answers to compiled reads

A memory reads the texts of a compiled document as the trees that the document
was made from.  So its answer is a page of what the storage lists, with the items
that the filter keeps and of these what the projection shows.
-/

namespace ItemTable

namespace Memory

variable {terms : ReadTerms}

/-! ## Pages -/

/-- An answer presents what a table listed: the items that the filter keeps, as far
as the projection shows them, or the error of the filter. -/
structure Presents
    (terms : ReadTerms)
    (result : ReadResult)
    (answer : Except ChainError Page) : Prop where
  page : ∀ items,
    keepItems terms.filter result.items = .ok items →
      ∃ page,
        answer = .ok page ∧ page.items = items.map (present terms.shown) ∧
          page.lastKey = result.lastKey
  error : ∀ error,
    keepItems terms.filter result.items = .error error → answer = .error (.ofService error)

/-- What is sent for a page comes back as a page that presents what was listed. -/
theorem presents_send
    {ρ : Type}
    {request : ρ}
    {call : ρ → Memory → Except ServiceError PageReply}
    {scan : ScanRequest}
    {memory : Memory}
    {document : Document}
    {result : ReadResult}
    (unselected : scan.select = none)
    (replied : call request memory = pageReply scan terms.filter terms.shown result) :
    ∃ reply,
      TableService.send (.ok request, document)
          (fun request memory => (call request memory, memory)) memory =
          (reply, document, memory) ∧
        Presents terms result (reply.map Page.ofReply) := by
  rw [TableService.send]
  simp only [replied, pageReply]
  cases kept : keepItems terms.filter result.items with
  | error error =>
      refine ⟨_, rfl, ?_, ?_⟩
      · intro items succeeded
        rw [kept] at succeeded
        cases succeeded
      · intro found failed
        rw [kept] at failed
        cases failed
        rfl
  | ok items =>
      refine ⟨_, rfl, ?_, ?_⟩
      · intro found succeeded
        rw [kept] at succeeded
        cases succeeded
        refine ⟨_, rfl, ?_, rfl⟩
        simp only [Page.ofReply, unselected]
        rfl
      · intro error failed
        rw [kept] at failed
        cases failed

/-- A memory can answer a document from a table: the key condition selects a part of
the table, and the rest is in order. -/
structure Serves
    (memory : Memory)
    (storage : Storage)
    (terms : ReadTerms)
    (selection : Option KeySelection)
    (document : Document) : Prop where
  found : memory.table document.tableName = .ok storage
  valid : terms.Valid
  selected : terms.keyCondition.mapM storage.schema.selection = .ok selection
  ofTable : document.index = none
  limited : ∀ limit ∈ document.limit, 0 < limit ∧ limit ≤ RequestFault.largestLimit
  unselected : document.select = none

variable
    {memory : Memory}
    {storage : Storage}
    {selection : Option KeySelection}
    {document : Document}
    {result : ReadResult}

theorem Serves.checkSelect
    (serves : memory.Serves storage terms selection document)
    (projection : Option String) :
    Memory.checkSelect document.select projection = .ok () := by
  rw [serves.unselected]
  rfl

/-- What the key condition selects is what the table lists. -/
theorem Serves.listing
    (serves : memory.Serves storage terms selection document)
    (listed : storage.read (readRequest selection document) = .ok result) :
    Memory.listing storage document terms.keyCondition = .ok result := by
  have selected := serves.selected
  cases isKey : terms.keyCondition with
  | none =>
      rw [isKey] at selected
      cases selected
      rw [Memory.listing, listed]
      rfl
  | some condition =>
      rw [isKey] at selected
      rcases bind_eq_ok.mp selected with ⟨part, isPart, ⟨⟩⟩
      have ofTable : orKeyError (storage.schemaFor none) = .ok storage.schema := rfl
      rw [Memory.listing, serves.ofTable, ofTable, ok_bind, isPart]
      dsimp only
      rw [listed]
      rfl

/-- The answer presents what the table lists. -/
theorem Serves.answer
    (serves : memory.Serves storage terms selection document)
    (listed : storage.read (readRequest selection document) = .ok result) :
    terms.answer document memory =
      pageReply (pageRequest (terms.write document)) terms.filter terms.shown result := by
  rw [ReadTerms.answer, serves.found, ok_bind, reading_eq_ok serves.valid, ok_bind,
    serves.listing listed, ok_bind]

/-- A page of a compiled document presents what the table lists. -/
theorem Serves.readPage
    (serves : memory.Serves storage terms selection document)
    (compiled : document.compile = .ok (terms.write document))
    (listed : storage.read (readRequest selection document) = .ok result) :
    ∃ answer,
      service.readPage terms.kind document memory = (answer, terms.write document, memory) ∧
        Presents terms result answer := by
  have requested := @toScanRequest_eq (terms.write document) fun limit asked =>
    (serves.limited limit asked).2
  have positive (limit : Nat) (asked : limit ∈ document.limit) :=
    (serves.limited limit asked).1
  have fits := serves.checkSelect (terms.write document).projectionText?
  have presented := serves.answer listed
  unfold TableService.readPage ReadTerms.kind
  cases isKey : terms.keyCondition with
  | none =>
      have sent :
          ∃ reply,
            TableService.send document.scanRequest service.scan memory =
                (reply, terms.write document, memory) ∧
              Presents terms result (reply.map Page.ofReply) := by
        rw [Document.scanRequest, Document.compileTo]
        simp only [compiled, requested]
        exact presents_send serves.unselected
          ((scan_eq serves.valid.bounded isKey positive fits memory).trans presented)
      rcases sent with ⟨reply, sent, presents⟩
      refine ⟨_, ?_, presents⟩
      simp only [Option.isSome_none, Bool.false_eq_true, if_false, sent]
  | some condition =>
      have sent :
          ∃ reply,
            TableService.send document.queryRequest service.query memory =
                (reply, terms.write document, memory) ∧
              Presents terms result (reply.map Page.ofReply) := by
        unfold Document.queryRequest Document.compileTo Document.toQueryRequest
        simp only [compiled, requested, ok_bind]
        exact presents_send serves.unselected
          ((query_eq serves.valid.bounded isKey positive fits memory).trans presented)
      rcases sent with ⟨reply, sent, presents⟩
      refine ⟨_, ?_, presents⟩
      simp only [Option.isSome_some, if_true, sent]

end Memory

end ItemTable
