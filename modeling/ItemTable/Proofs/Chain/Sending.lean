import ItemTable.Proofs.Chain.Pagewise

/-!
# What a chain sends

The request that a chain becomes depends on its conditions and its projection in one way
for each kind of operation.  A chain sends such requests only, whichever call runs it and
however many pages it reads.
-/

namespace ItemTable

/-! ## Requests of documents -/

namespace Document

/-- The request that a document makes for an operation. -/
def request (document : Document) : Operation → Except ChainError Request
  | .getItem => document.getRequest.1.map .get
  | .putItem => document.putRequest.1.map .put
  | .deleteItem => document.deleteRequest.1.map .delete
  | .query => document.queryRequest.1.map .query
  | .scan => document.scanRequest.1.map .scan

variable
    {document compiled : Document}
    {kind : ReadKind}
    {first second : PageRequest}

theorem Makes.unique
    (makes : document.Makes kind first)
    (again : document.Makes kind second) :
    first = second := by
  cases makes with
  | query done made =>
      cases again with
      | query redone remade =>
          cases done.symm.trans redone
          cases made.symm.trans remade
          rfl
  | scan done made =>
      cases again with
      | scan redone remade =>
          cases done.symm.trans redone
          cases made.symm.trans remade
          rfl

/-- A compiled document makes the same requests as before. -/
theorem request_compiled
    (done : document.compile = .ok compiled)
    (operation : Operation) :
    compiled.request operation = document.request operation := by
  have same {ρ : Type} (make : Document → Except RequestFault ρ) :
      compiled.compileTo make = document.compileTo make := by
    rw [compileTo, compileTo, done, compile_compiled done]
  cases operation <;>
    simp only [Document.request, getRequest, putRequest, deleteRequest, queryRequest,
      scanRequest, same]

theorem map_compileTo_eq_ok_iff
    {ρ : Type}
    {make : Document → Except RequestFault ρ}
    {wrap : ρ → Request}
    {request : Request} :
    (document.compileTo make).1.map wrap = .ok request ↔
      ∃ compiled made,
        document.compile = .ok compiled ∧ make compiled = .ok made ∧ request = wrap made := by
  rw [compileTo]
  cases document.compile with
  | error fault =>
      constructor
      · rintro ⟨⟩
      · rintro ⟨_, _, ⟨⟩, -⟩
  | ok compiled =>
      dsimp only
      cases isMade : make compiled with
      | error fault =>
          constructor
          · rintro ⟨⟩
          · rintro ⟨_, made, ⟨⟩, remade, -⟩
            cases isMade.symm.trans remade
      | ok made =>
          constructor
          · rintro ⟨⟩
            exact ⟨compiled, made, rfl, isMade, rfl⟩
          · rintro ⟨_, other, ⟨⟩, remade, rfl⟩
            cases isMade.symm.trans remade
            rfl

/-- The document of a read makes the request for a page as the request of its operation. -/
theorem request_eq_ok_iff
    {request : Request} :
    document.request kind.operation = .ok request ↔
      ∃ first, document.Makes kind first ∧ request = first.request := by
  cases kind with
  | query =>
      refine map_compileTo_eq_ok_iff.trans ?_
      constructor
      · rintro ⟨compiled, made, done, isMade, rfl⟩
        exact ⟨_, .query done isMade, rfl⟩
      · rintro ⟨_, makes, rfl⟩
        cases makes with
        | query done isMade => exact ⟨_, _, done, isMade, rfl⟩
  | scan =>
      refine map_compileTo_eq_ok_iff.trans ?_
      constructor
      · rintro ⟨compiled, made, done, isMade, rfl⟩
        exact ⟨_, .scan done isMade, rfl⟩
      · rintro ⟨_, makes, rfl⟩
        cases makes with
        | scan done isMade => exact ⟨_, _, done, isMade, rfl⟩

end Document

/-! ## Requests of chains -/

namespace ChainState

/-- The requests that a chain sends for items, or for what else is selected. -/
inductive Sends (chain : ChainState) (select : Option Select) : Request → Prop
  | get
      (fits : chain.Fits .getItem)
      (document : Document) :
      Sends chain select (.get ((chain.readTerms select).write document).toGetRequest)
  | put
      (document : Document) :
      Sends chain select (.put (document.guarded chain.condition).toPutRequest)
  | delete
      (document : Document) :
      Sends chain select (.delete (document.guarded chain.condition).toDeleteRequest)
  | page
      {kind : ReadKind}
      (accepted : ¬chain.Refuses kind.operation)
      (name : String)
      (key : Item) :
      Sends chain select ((chain.pageRequest name kind select).withStart key).request

variable
    {chain : ChainState}
    {operation : Operation}
    {name : String}
    {select : Option Select}
    {document compiled : Document}

theorem fits_of_document
    (isDocument : chain.document name operation select = .ok document) :
    chain.Fits operation := by
  by_contra unfit
  rcases document_eq_error unfit name select with ⟨error, refused⟩
  cases isDocument.symm.trans refused

/-- A chain is not refused if its document is compiled. -/
theorem not_refuses_of_compile
    (isDocument : chain.document name operation select = .ok document)
    (done : document.compile = .ok compiled) :
    ¬chain.Refuses operation := by
  have fits := fits_of_document isDocument
  refine not_refuses_iff.mpr ⟨fits, fun tree isKey => ?_⟩
  rcases fits.exists_document name select with ⟨_, again, asks, -⟩
  cases isDocument.symm.trans again
  rw [← Condition.checkKey_eq_ok_iff]
  cases checked : tree.checkKey with
  | ok _ => rfl
  | error fault =>
      rw [Option.mem_def] at isKey
      rw [isKey] at asks
      cases done.symm.trans (asks.compile_eq_error checked)

/-! ### Requests for single items -/

theorem poses_of_getItem
    (isDocument : chain.document name .getItem select = .ok document) :
    document.Poses (chain.readTerms select) := by
  have fits := fits_of_document isDocument
  rw [ChainState.document, check_eq_ok_iff.mpr fits, ok_bind] at isDocument
  cases isDocument
  refine ⟨?_, ?_, rfl, chain.projectionField_cases select, rfl, rfl⟩
  · rw [readTerms, fits.keyCondition_eq_none (by decide)]
    rfl
  · rw [readTerms, fits.filter_eq_none rfl]
    rfl

theorem asks_of_isWrite
    (isDocument : chain.document name operation select = .ok document)
    (isWrite : operation.isWrite) :
    document.Asks none none chain.condition ∧ document.projection = none := by
  rw [ChainState.document, check_eq_ok_iff.mpr (fits_of_document isDocument), ok_bind]
    at isDocument
  cases operation with
  | putItem | deleteItem =>
      cases isDocument
      exact ⟨⟨rfl, rfl, rfl, rfl, rfl⟩, rfl⟩
  | getItem | query | scan => cases isWrite

section

variable {request : Request}

theorem sends_of_getItem
    (isDocument : chain.document name .getItem select = .ok document)
    (requested : document.request .getItem = .ok request) :
    chain.Sends select request := by
  have fits := fits_of_document isDocument
  rcases Document.map_compileTo_eq_ok_iff.mp requested with ⟨compiled, _, done, ⟨⟩, rfl⟩
  have accepted (tree : Condition) (isKey : tree ∈ chain.keyCondition) :
      tree.checkKey = .ok () :=
    nomatch (fits.keyCondition_eq_none (by decide)).symm.trans isKey
  cases done.symm.trans ((poses_of_getItem isDocument).compile accepted)
  exact .get fits document

/-- Whatever item is to be stored, its document has the conditions of the chain. -/
theorem sends_of_putItem
    (isDocument : chain.document name .putItem select = .ok document)
    (item : Item)
    (requested : { document with item }.request .putItem = .ok request) :
    chain.Sends select request := by
  rcases asks_of_isWrite isDocument rfl with ⟨asks, whole⟩
  rcases Document.map_compileTo_eq_ok_iff.mp requested with ⟨compiled, _, done, ⟨⟩, rfl⟩
  have filled : { document with item }.Asks none none chain.condition :=
    ⟨asks.keyCondition, asks.filter, asks.condition, asks.names, asks.values⟩
  cases done.symm.trans (filled.compile_guarded whole)
  exact .put _

theorem sends_of_deleteItem
    (isDocument : chain.document name .deleteItem select = .ok document)
    (requested : document.request .deleteItem = .ok request) :
    chain.Sends select request := by
  rcases asks_of_isWrite isDocument rfl with ⟨asks, whole⟩
  rcases Document.map_compileTo_eq_ok_iff.mp requested with ⟨compiled, _, done, ⟨⟩, rfl⟩
  cases done.symm.trans (asks.compile_guarded whole)
  exact .delete document

/-! ### Requests for pages -/

/-- The document of a read makes the requests for the pages of its chain. -/
theorem sends_of_makes
    {kind : ReadKind}
    {first : PageRequest}
    (isDocument : chain.document name kind.operation select = .ok document)
    (makes : document.Makes kind first)
    (key : Item) :
    chain.Sends select (first.withStart key).request := by
  have accepted : ¬chain.Refuses kind.operation := by
    cases makes with
    | query done made => exact not_refuses_of_compile isDocument done
    | scan done made => exact not_refuses_of_compile isDocument done
  rcases makes_pageRequest accepted name select with ⟨again, makesPage⟩
  cases isDocument.symm.trans again
  rw [makes.unique makesPage]
  exact .page accepted name key

/-- The document of a chain that can be compiled makes a request that the chain sends. -/
theorem exists_sends_of_compile
    (isDocument : chain.document name operation select = .ok document)
    (done : document.compile = .ok compiled) :
    ∃ request, compiled.request operation = .ok request ∧ chain.Sends select request := by
  rw [Document.request_compiled done]
  have read
      {kind : ReadKind}
      (isRead : operation = kind.operation) :
      ∃ request, document.request operation = .ok request ∧ chain.Sends select request := by
    subst isRead
    have accepted := not_refuses_of_compile isDocument done
    rcases makes_pageRequest accepted name select with ⟨asked, makes⟩
    cases isDocument.symm.trans asked
    refine ⟨_, Document.request_eq_ok_iff.mpr ⟨_, makes, rfl⟩, ?_⟩
    rw [← (chain.pageRequest name kind select).withStart_start]
    exact .page accepted name _
  cases operation with
  | getItem =>
      have requested : document.request .getItem = .ok (.get compiled.toGetRequest) :=
        Document.map_compileTo_eq_ok_iff.mpr ⟨compiled, _, done, rfl, rfl⟩
      exact ⟨_, requested, sends_of_getItem isDocument requested⟩
  | putItem =>
      have requested : document.request .putItem = .ok (.put compiled.toPutRequest) :=
        Document.map_compileTo_eq_ok_iff.mpr ⟨compiled, _, done, rfl, rfl⟩
      exact ⟨_, requested, sends_of_putItem isDocument document.item requested⟩
  | deleteItem =>
      have requested : document.request .deleteItem = .ok (.delete compiled.toDeleteRequest) :=
        Document.map_compileTo_eq_ok_iff.mpr ⟨compiled, _, done, rfl, rfl⟩
      exact ⟨_, requested, sends_of_deleteItem isDocument requested⟩
  | query => exact @read .query rfl
  | scan => exact @read .scan rfl

end

end ChainState

/-! ## Logs -/

section

variable {σ : Type}

theorem Course.exists_key_of_mem
    {service : TableService σ}
    {first : PageRequest}
    {bound : Nat}
    {key : Item}
    {state after : σ}
    {requests : List Request}
    {replies : List PageReply}
    {ending : Ending ServiceError}
    (course : Course service first bound key state requests replies ending after) :
    ∀ request ∈ requests, ∃ key, request = (first.withStart key).request := by
  induction course with
  | cut =>
      intro request sent
      cases sent
  | @failed _ key | @last _ key => exact List.forall_mem_singleton.mpr ⟨key, rfl⟩
  | @more _ key _ _ _ _ _ _ _ _ _ _ ih => exact List.forall_mem_cons.mpr ⟨⟨key, rfl⟩, ih⟩

theorem TableService.map_of_mem_send
    {ρ α : Type}
    {wrap : ρ → Request}
    {call : ρ → σ → Except ServiceError α × σ}
    {request : Except ChainError ρ × Document}
    {state : σ}
    {entry : Request}
    (sent : entry ∈ (send request (record wrap call) (state, [])).2.2.2) :
    request.1.map wrap = .ok entry := by
  rcases request with ⟨error | made, document⟩
  · cases sent
  · rcases send_record wrap call made document (state, []) with ⟨answer, next, isSent⟩
    rw [isSent] at sent
    rcases List.mem_singleton.mp sent with rfl
    rfl

/-- Without a request, nothing is sent for a page. -/
theorem TableService.readPage_of_unmade
    {document : Document}
    {kind : ReadKind}
    (unmade : ∀ first, ¬document.Makes kind first)
    (service : TableService σ)
    (state : σ) :
    ∃ error next, service.readPage kind document state = (.error error, next, state) := by
  have noRequest (request : Request) : document.request kind.operation ≠ .ok request := by
    intro requested
    rcases Document.request_eq_ok_iff.mp requested with ⟨first, makes, -⟩
    exact unmade first makes
  cases kind with
  | query =>
      change ∀ request, document.queryRequest.1.map Request.query ≠ .ok request at noRequest
      rw [readPage]
      generalize document.queryRequest = asked at noRequest ⊢
      rcases asked with ⟨error | made, next⟩
      · exact ⟨error, next, rfl⟩
      · exact absurd rfl (noRequest _)
  | scan =>
      change ∀ request, document.scanRequest.1.map Request.scan ≠ .ok request at noRequest
      rw [readPage]
      generalize document.scanRequest = asked at noRequest ⊢
      rcases asked with ⟨error | made, next⟩
      · exact ⟨error, next, rfl⟩
      · exact absurd rfl (noRequest _)

namespace Paginator

variable {paginator : Paginator}

theorem stream_of_unmade
    (unmade : ∀ first, ¬paginator.document.Makes paginator.kind first)
    (service : TableService σ)
    (bound : Nat)
    (state : σ) :
    (paginator.stream service bound state).2.2 = state := by
  cases bound with
  | zero => rfl
  | succ bound =>
      have unmadeHere (first : PageRequest) :
          ¬(paginator.document.withStart paginator.cursor.start).Makes paginator.kind first :=
        fun makes => unmade _ (makes.withStart paginator.document.start)
      rcases service.readPage_of_unmade unmadeHere state with ⟨error, next, refused⟩
      rw [stream, nextPage_eq, refused]

/-- A paginator sends the requests that its document makes for some pages. -/
theorem exists_makes_of_mem_stream
    {service : TableService σ}
    {bound : Nat}
    {state : σ}
    {request : Request}
    (sent : request ∈ (paginator.stream service.recorded bound (state, [])).2.2.2) :
    ∃ first key,
      paginator.document.Makes paginator.kind first ∧
        request = (first.withStart key).request := by
  by_cases makes : ∃ first, paginator.document.Makes paginator.kind first
  · rcases makes with ⟨first, makes⟩
    rcases exists_course service first bound paginator.cursor.start state with
      ⟨requests, replies, ending, after, course⟩
    rcases paginator.takes_course makes course with ⟨next, -, -, -, streamed, -⟩
    rw [streamed] at sent
    rcases course.exists_key_of_mem request sent with ⟨key, isRequest⟩
    exact ⟨first, key, makes, isRequest⟩
  · rw [stream_of_unmade (fun first made => makes ⟨first, made⟩)] at sent
    cases sent

theorem nextPage_snd_eq_stream_snd
    {τ : Type}
    (service : TableService τ)
    (paginator : Paginator)
    (state : τ) :
    (paginator.nextPage service state).2 = (paginator.stream service 1 state).2 := by
  rw [stream]
  rcases paginator.nextPage service state with ⟨_ | page, next, after⟩
  · rfl
  · dsimp only
    split <;> rfl

end Paginator

end

/-! ## Calls -/

/-- What a call asks for instead of items. -/
def Terminal.select : Terminal → Option Select
  | count | countAll => some .count
  | _ => none

namespace ChainState

variable {σ : Type} {table : Table σ} {chain : ChainState} {state : σ}

/-- A read sends requests of its chain. -/
theorem sends_of_read
    {kind : ReadKind}
    {select : Option Select}
    {paginator : Paginator}
    {bound : Nat}
    {request : Request}
    (begun : table.paginator chain kind select = .ok paginator)
    (sent : request ∈ (paginator.stream table.service.recorded bound (state, [])).2.2.2) :
    chain.Sends select request := by
  rcases bind_eq_ok.mp begun with ⟨document, isDocument, ⟨⟩⟩
  rcases Paginator.exists_makes_of_mem_stream sent with ⟨first, key, makes, rfl⟩
  exact sends_of_makes isDocument makes key

theorem sends_of_readPage
    (kind : ReadKind)
    (select : Option Select) :
    ∀ request ∈ (table.recorded.readPage chain kind select (state, [])).2.2.2,
      chain.Sends select request := by
  intro request sent
  rw [Table.readPage] at sent
  cases begun : table.recorded.paginator chain kind select with
  | error error =>
      rw [begun] at sent
      cases sent
  | ok paginator =>
      rw [begun] at sent
      change request ∈ (paginator.nextPage table.service.recorded (state, [])).2.2.2 at sent
      rw [Paginator.nextPage_snd_eq_stream_snd] at sent
      exact @sends_of_read _ table chain state _ _ _ _ _ begun sent

theorem sends_of_pages
    (wanted : Option Nat) :
    ∀ request ∈ (table.recorded.pages chain wanted (state, [])).2.2.2,
      chain.Sends none request := by
  intro request sent
  rw [Table.pages] at sent
  cases begun : table.recorded.paginator chain (Table.readKind chain) none with
  | error error =>
      rw [begun] at sent
      cases sent
  | ok paginator =>
      rw [begun] at sent
      exact @sends_of_read _ table chain state _ _ _ _ _ begun sent

theorem sends_of_readAll
    {α : Type}
    {change : List Page → α}
    {read : TableService (σ × List Request) → Nat → Paginator → σ × List Request →
      Drained α × Paginator × σ × List Request}
    (drains : ∀ service bound paginator state,
      read service bound paginator state =
        ((paginator.drain service bound state).1.map change,
          (paginator.drain service bound state).2))
    (kind : ReadKind)
    (select : Option Select) :
    ∀ request ∈ (table.recorded.readAll chain kind select read (state, [])).2.2.2,
      chain.Sends select request := by
  intro request sent
  rw [Table.readAll] at sent
  cases begun : table.recorded.paginator chain kind select with
  | error error =>
      rw [begun] at sent
      cases sent
  | ok paginator =>
      rw [begun] at sent
      simp only [drains, Paginator.drain_snd_eq_stream_snd] at sent
      exact @sends_of_read _ table chain state _ _ _ _ _ begun sent

theorem sends_of_getOptional :
    ∀ request ∈ (table.recorded.getOptional chain (state, [])).2.2,
      chain.Sends none request := by
  intro request sent
  rw [Table.getOptional] at sent
  cases isDocument : chain.document table.recorded.name .getItem none with
  | error error =>
      rw [isDocument] at sent
      cases sent
  | ok document =>
      rw [isDocument] at sent
      exact sends_of_getItem isDocument (TableService.map_of_mem_send sent)

theorem sends_of_put (item : Item) :
    ∀ request ∈ (table.recorded.put chain item (state, [])).2.2,
      chain.Sends none request := by
  intro request sent
  rw [Table.put] at sent
  cases isDocument : chain.document table.recorded.name .putItem none with
  | error error =>
      rw [isDocument] at sent
      cases sent
  | ok document =>
      rw [isDocument] at sent
      exact sends_of_putItem isDocument _ (TableService.map_of_mem_send sent)

theorem sends_of_delete :
    ∀ request ∈ (table.recorded.delete chain (state, [])).2.2,
      chain.Sends none request := by
  intro request sent
  rw [Table.delete] at sent
  cases isDocument : chain.document table.recorded.name .deleteItem none with
  | error error =>
      rw [isDocument] at sent
      cases sent
  | ok document =>
      rw [isDocument] at sent
      exact sends_of_deleteItem isDocument (TableService.map_of_mem_send sent)

/-- Whichever call runs a chain, it sends requests of the chain. -/
theorem sends_of_perform (terminal : Terminal) :
    ∀ request ∈ (table.recorded.perform chain (state, []) terminal).2.2.2,
      chain.Sends terminal.select request := by
  cases terminal with
  | get =>
      have sameLog : (table.recorded.get chain (state, [])).2 =
          (table.recorded.getOptional chain (state, [])).2 := by
        rw [Table.get]
        rcases table.recorded.getOptional chain (state, []) with ⟨error | _ | item, next⟩ <;> rfl
      change ∀ request ∈ (table.recorded.get chain (state, [])).2.2, _
      rw [sameLog]
      exact sends_of_getOptional
  | getOptional => exact sends_of_getOptional
  | put item => exact sends_of_put item
  | delete => exact sends_of_delete
  | scan => exact sends_of_readPage .scan none
  | query => exact sends_of_readPage .query none
  | run => exact sends_of_readPage (Table.readKind chain) none
  | count => exact sends_of_readPage (Table.readKind chain) (some .count)
  | pages further => exact sends_of_pages _
  | scanAll => exact sends_of_readAll (fun _ _ _ _ => rfl) .scan none
  | queryAll => exact sends_of_readAll (fun _ _ _ _ => rfl) .query none
  | runAll => exact sends_of_readAll (fun _ _ _ _ => rfl) (Table.readKind chain) none
  | countAll => exact sends_of_readAll (fun _ _ _ _ => rfl) (Table.readKind chain) (some .count)

end ChainState

end ItemTable
