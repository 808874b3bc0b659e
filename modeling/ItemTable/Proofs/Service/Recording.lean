import ItemTable.Proofs.Document.Conveying
import ItemTable.Proofs.Memory.Answers

/-!
# What services are sent

A recorded service notes every request and answers it as before.  A document that
bears conditions is sent in one request, whose texts are read as these conditions,
and reading page by page sends one such request for each page.
-/

namespace ItemTable

/-! ## Requests with conditions -/

namespace Request

def keyCondition : Request → Option String
  | query request => request.keyCondition
  | _ => none

def filter : Request → Option String
  | query request => request.filter
  | scan request => request.filter
  | _ => none

/-- What a write depends on. -/
def condition : Request → Option String
  | put request => request.condition
  | delete request => request.condition
  | _ => none

def names : Request → NameMap String
  | get request => request.names
  | put request => request.names
  | delete request => request.names
  | query request => request.names
  | scan request => request.names

def values : Request → NameMap AttributeValue
  | get _ => ∅
  | put request => request.values
  | delete request => request.values
  | query request => request.values
  | scan request => request.values

/-- A request of an operation whose texts are read as conditions, each with what the
request says of its placeholders. -/
structure Conveys
    (request : Request)
    (operation : Operation)
    (keyCondition filter condition : Option Condition) : Prop where
  operation : request.operation = operation
  keyCondition : ReadsBack request.names request.values keyCondition request.keyCondition
  filter : ReadsBack request.names request.values filter request.filter
  condition : ReadsBack request.names request.values condition request.condition

end Request

namespace TableService

variable {σ ρ α : Type}

/-- Note a request before it is answered. -/
def record
    (wrap : ρ → Request)
    (call : ρ → σ → Except ServiceError α × σ)
    (request : ρ)
    (state : σ × List Request) :
    Except ServiceError α × σ × List Request :=
  let (reply, next) := call request state.1
  (reply, next, state.2 ++ [wrap request])

/-- The service that notes what it is sent. -/
def recorded (service : TableService σ) : TableService (σ × List Request) where
  get := record .get service.get
  put := record .put service.put
  delete := record .delete service.delete
  query := record .query service.query
  scan := record .scan service.scan
  pageBound state := service.pageBound state.1

theorem send_record
    (wrap : ρ → Request)
    (call : ρ → σ → Except ServiceError α × σ)
    (request : ρ)
    (document : Document)
    (state : σ × List Request) :
    ∃ answer next,
      send (.ok request, document) (record wrap call) state =
        (answer, document, next, state.2 ++ [wrap request]) := by
  rw [send]
  simp only [record]
  cases (call request state.1).1 with
  | error error => exact ⟨_, _, rfl⟩
  | ok reply => exact ⟨_, _, rfl⟩

end TableService

/-! ## Recording changes nothing -/

section

variable {σ ρ α β : Type}

/-- What a call leads to, without the requests that were noted. -/
def forget (run : α × β × σ × List Request) : α × β × σ :=
  (run.1, run.2.1, run.2.2.1)

theorem TableService.forget_send
    (wrap : ρ → Request)
    (call : ρ → σ → Except ServiceError α × σ)
    (request : Except ChainError ρ × Document)
    (state : σ × List Request) :
    forget (send request (record wrap call) state) = send request call state.1 := by
  rcases request with ⟨_ | request, document⟩
  · rfl
  · simp only [send, record]
    rcases call request state.1 with ⟨_ | reply, next⟩ <;> rfl

theorem TableService.forget_getItem
    (service : TableService σ)
    (document : Document)
    (state : σ × List Request) :
    forget (service.recorded.getItem document state) = service.getItem document state.1 := by
  rw [getItem, getItem, ← forget_send .get]
  rfl

theorem TableService.forget_putItem
    (service : TableService σ)
    (document : Document)
    (state : σ × List Request) :
    forget (service.recorded.putItem document state) = service.putItem document state.1 := by
  rw [putItem, putItem, ← forget_send .put]
  rfl

theorem TableService.forget_deleteItem
    (service : TableService σ)
    (document : Document)
    (state : σ × List Request) :
    forget (service.recorded.deleteItem document state) =
      service.deleteItem document state.1 := by
  rw [deleteItem, deleteItem, ← forget_send .delete]
  rfl

theorem TableService.forget_readPage
    (service : TableService σ)
    (kind : ReadKind)
    (document : Document)
    (state : σ × List Request) :
    forget (service.recorded.readPage kind document state) =
      service.readPage kind document state.1 := by
  unfold readPage
  cases kind with
  | query =>
      dsimp only
      rw [← forget_send .query]
      rfl
  | scan =>
      dsimp only
      rw [← forget_send .scan]
      rfl

namespace Paginator

theorem forget_nextPage
    (service : TableService σ)
    (paginator : Paginator)
    (state : σ × List Request) :
    forget (paginator.nextPage service.recorded state) = paginator.nextPage service state.1 := by
  rw [nextPage, nextPage, ← TableService.forget_readPage]
  rcases service.recorded.readPage paginator.kind
    { paginator.document with start := paginator.cursor.start } state with
    ⟨_ | page, document, next⟩ <;> rfl

theorem forget_stream
    (service : TableService σ)
    (wanted : Nat)
    (paginator : Paginator)
    (state : σ × List Request) :
    forget (paginator.stream service.recorded wanted state) =
      paginator.stream service wanted state.1 := by
  induction wanted generalizing paginator state with
  | zero => rfl
  | succ wanted ih =>
      rw [stream, stream, ← forget_nextPage]
      rcases paginator.nextPage service.recorded state with ⟨_ | page, next, after⟩
      · rfl
      · simp only [forget]
        split
        · rw [← ih next after]
          rfl
        · rfl

theorem forget_drain
    (service : TableService σ)
    (bound : Nat)
    (paginator : Paginator)
    (state : σ × List Request) :
    forget (paginator.drain service.recorded bound state) =
      paginator.drain service bound state.1 := by
  induction bound generalizing paginator state with
  | zero => rfl
  | succ bound ih =>
      rw [drain, drain, ← forget_nextPage]
      rcases paginator.nextPage service.recorded state with ⟨_ | page, next, after⟩
      · rfl
      · simp only [forget]
        split
        · rw [← ih next after]
          rfl
        · rfl

end Paginator

end

/-! ## Sending a document -/

namespace Document.Bears

variable
    {σ : Type}
    {document : Document}
    {keyCondition filter condition : Option Condition}

/-- A document that can be compiled, and made a request, is sent in one request. -/
theorem send
    {ρ α : Type}
    (bears : document.Bears keyCondition filter condition)
    (accepted : ∀ tree ∈ keyCondition, tree.checkKey = .ok ())
    (make : Document → Except RequestFault ρ)
    (makes : ∀ compiled : Document,
      compiled.limit = document.limit → ∃ request, make compiled = .ok request)
    (wrap : ρ → Request)
    (call : ρ → σ → Except ServiceError α × σ)
    (state : σ × List Request) :
    ∃ answer compiled request next,
      TableService.send (document.compileTo make) (TableService.record wrap call) state =
          (answer, compiled, next, state.2 ++ [wrap request]) ∧
        compiled.Conveys keyCondition filter condition ∧
        compiled.limit = document.limit ∧
        make compiled = .ok request := by
  rcases bears.compile accepted with ⟨compiled, isCompiled, conveys, sameLimit⟩
  rcases makes compiled sameLimit with ⟨request, made⟩
  rcases TableService.send_record wrap call request compiled state with ⟨answer, next, sent⟩
  refine ⟨answer, compiled, request, next, ?_, conveys, sameLimit, made⟩
  rw [compileTo, isCompiled]
  dsimp only
  rw [made]
  exact sent

theorem getItem
    (bears : document.Bears none none none)
    (service : TableService σ)
    (state : σ × List Request) :
    ∃ request,
      (service.recorded.getItem document state).2.2.2 = state.2 ++ [request] ∧
        request.Conveys .getItem none none none := by
  rcases bears.send nofun (fun compiled => .ok compiled.toGetRequest) (fun _ _ => ⟨_, rfl⟩)
      .get service.get state with
    ⟨answer, compiled, request, next, sent, -⟩
  refine ⟨.get request, ?_, rfl, .absent, .absent, .absent⟩
  rw [TableService.getItem, getRequest, TableService.recorded, sent]

theorem putItem
    (bears : document.Bears none none condition)
    (service : TableService σ)
    (state : σ × List Request) :
    ∃ request,
      (service.recorded.putItem document state).2.2.2 = state.2 ++ [request] ∧
        request.Conveys .putItem none none condition := by
  rcases bears.send nofun (fun compiled => .ok compiled.toPutRequest) (fun _ _ => ⟨_, rfl⟩)
      .put service.put state with
    ⟨answer, compiled, request, next, sent, conveys, -, ⟨⟩⟩
  refine ⟨.put compiled.toPutRequest, ?_, rfl, .absent, .absent, conveys.condition⟩
  rw [TableService.putItem, putRequest, TableService.recorded, sent]

theorem deleteItem
    (bears : document.Bears none none condition)
    (service : TableService σ)
    (state : σ × List Request) :
    ∃ request,
      (service.recorded.deleteItem document state).2.2.2 = state.2 ++ [request] ∧
        request.Conveys .deleteItem none none condition := by
  rcases bears.send nofun (fun compiled => .ok compiled.toDeleteRequest) (fun _ _ => ⟨_, rfl⟩)
      .delete service.delete state with
    ⟨answer, compiled, request, next, sent, conveys, -, ⟨⟩⟩
  refine ⟨.delete compiled.toDeleteRequest, ?_, rfl, .absent, .absent, conveys.condition⟩
  rw [TableService.deleteItem, deleteRequest, TableService.recorded, sent]

/-- A page is asked for with one request, and the document stays compiled. -/
theorem readPage
    {kind : ReadKind}
    (bears : document.Bears keyCondition filter none)
    (accepted : ∀ tree ∈ keyCondition, tree.checkKey = .ok ())
    (limited : ∀ limit ∈ document.limit, limit ≤ RequestFault.largestLimit)
    (scanned : kind = .scan → keyCondition = none)
    (service : TableService σ)
    (state : σ × List Request) :
    ∃ answer compiled next request,
      service.recorded.readPage kind document state =
          (answer, compiled, next, state.2 ++ [request]) ∧
        compiled.Conveys keyCondition filter none ∧
        compiled.limit = document.limit ∧
        request.Conveys kind.operation keyCondition filter none := by
  have scans {compiled : Document} (sameLimit : compiled.limit = document.limit) :
      compiled.toScanRequest = .ok (Memory.pageRequest compiled) :=
    Memory.toScanRequest_eq (sameLimit ▸ limited)
  have queries {compiled : Document} (sameLimit : compiled.limit = document.limit) :
      compiled.toQueryRequest = .ok (Memory.queryRequest compiled) := by
    rw [toQueryRequest, scans sameLimit]
    rfl
  unfold TableService.readPage
  cases kind with
  | query =>
      rcases bears.send accepted toQueryRequest (fun _ same => ⟨_, queries same⟩) .query
          service.query state with
        ⟨answer, compiled, request, next, sent, conveys, sameLimit, made⟩
      cases (queries sameLimit).symm.trans made
      refine ⟨answer.map Page.ofReply, compiled, next, .query (Memory.queryRequest compiled), ?_,
        conveys, sameLimit, rfl, conveys.keyCondition, conveys.filter, .absent⟩
      rw [queryRequest, TableService.recorded, sent]
  | scan =>
      rcases bears.send accepted toScanRequest (fun _ same => ⟨_, scans same⟩) .scan service.scan
          state with
        ⟨answer, compiled, request, next, sent, conveys, sameLimit, made⟩
      cases (scans sameLimit).symm.trans made
      have noKey : keyCondition = none := scanned rfl
      refine ⟨answer.map Page.ofReply, compiled, next, .scan (Memory.pageRequest compiled), ?_,
        conveys, sameLimit, rfl, noKey ▸ .absent, conveys.filter, .absent⟩
      rw [scanRequest, TableService.recorded, sent]

end Document.Bears

/-! ## Reading page by page -/

namespace Paginator

variable
    {σ : Type}
    {paginator : Paginator}
    {keyCondition filter : Option Condition}

/-- Reading all pages and listing them page by page go through the same states. -/
theorem drain_snd_eq_stream_snd
    (service : TableService σ)
    (bound : Nat)
    (paginator : Paginator)
    (state : σ) :
    (drain service bound paginator state).2 = (stream service bound paginator state).2 := by
  induction bound generalizing paginator state with
  | zero => rfl
  | succ bound ih =>
      rw [drain, stream]
      rcases paginator.nextPage service state with ⟨_ | page, next, after⟩
      · rfl
      · dsimp only
        split
        · exact ih next after
        · rfl

/-- A read whose next page can be asked for. -/
structure Ready
    (paginator : Paginator)
    (keyCondition filter : Option Condition) : Prop where
  bears : paginator.document.Bears keyCondition filter none
  accepted : ∀ tree ∈ keyCondition, tree.checkKey = .ok ()
  limited : ∀ limit ∈ paginator.document.limit, limit ≤ RequestFault.largestLimit
  scanned : paginator.kind = .scan → keyCondition = none

/-- The next page is asked for with one request, and then the read is ready again. -/
theorem Ready.nextPage
    (ready : paginator.Ready keyCondition filter)
    (service : TableService σ)
    (state : σ × List Request) :
    ∃ page next after request,
      paginator.nextPage service.recorded state = (page, next, after, state.2 ++ [request]) ∧
        next.Ready keyCondition filter ∧
        next.kind = paginator.kind ∧
        request.Conveys paginator.kind.operation keyCondition filter none := by
  rcases (ready.bears.withStart paginator.cursor.start).readPage ready.accepted ready.limited
      ready.scanned service state with
    ⟨answer, compiled, after, request, sent, conveys, sameLimit, asked⟩
  have limited : ∀ limit ∈ compiled.limit, limit ≤ RequestFault.largestLimit := by
    rw [sameLimit]
    exact ready.limited
  rw [Paginator.nextPage, sent]
  cases answer with
  | error error =>
      exact ⟨_, _, _, request, rfl, ⟨.texts conveys, ready.accepted, limited, ready.scanned⟩, rfl,
        asked⟩
  | ok page =>
      exact ⟨_, _, _, request, rfl, ⟨.texts conveys, ready.accepted, limited, ready.scanned⟩, rfl,
        asked⟩

/-- Each page is asked for with one request. -/
theorem Ready.stream
    (ready : paginator.Ready keyCondition filter)
    (service : TableService σ)
    (wanted : Nat)
    (state : σ × List Request) :
    ∃ requests,
      (paginator.stream service.recorded wanted state).2.2.2 = state.2 ++ requests ∧
        requests.length = (paginator.stream service.recorded wanted state).1.length ∧
        ∀ request ∈ requests,
          request.Conveys paginator.kind.operation keyCondition filter none := by
  -- A page leaves a compiled document behind, and so the read stays ready.
  induction wanted generalizing paginator state with
  | zero =>
      rw [Paginator.stream]
      refine ⟨[], (List.append_nil state.2).symm, rfl, ?_⟩
      intro request member
      cases member
  | succ wanted ih =>
      rcases ready.nextPage service state with
        ⟨page, next, after, request, sent, nextReady, sameKind, asked⟩
      have single : ∀ other ∈ [request],
          other.Conveys paginator.kind.operation keyCondition filter none := by
        intro other member
        rw [List.mem_singleton.mp member]
        exact asked
      rw [Paginator.stream, sent]
      cases page with
      | error error => exact ⟨[request], rfl, rfl, single⟩
      | ok page =>
          dsimp only
          split
          · rcases ih nextReady (after, state.2 ++ [request]) with
              ⟨requests, log, number, others⟩
            refine ⟨request :: requests, ?_, ?_, ?_⟩
            · rw [log, List.append_assoc]
              rfl
            · exact congrArg Nat.succ number
            · rw [← sameKind]
              rw [← sameKind] at asked
              exact List.forall_mem_cons.mpr ⟨asked, others⟩
          · exact ⟨[request], rfl, rfl, single⟩

theorem stream_ne_nil
    (service : TableService σ)
    (wanted : Nat)
    (paginator : Paginator)
    (state : σ) :
    (paginator.stream service (wanted + 1) state).1 ≠ [] := by
  rw [stream]
  rcases paginator.nextPage service state with ⟨_ | page, next, after⟩
  · exact List.cons_ne_nil _ _
  · dsimp only
    split <;> exact List.cons_ne_nil _ _

end Paginator

end ItemTable
