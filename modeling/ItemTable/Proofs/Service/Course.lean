import ItemTable.Proofs.Document.Restarting
import ItemTable.Proofs.Service.Recording

/-!
# The course of a read

A read asks for a page, goes on behind the last key that the reply names, and is over
with the first reply that names none and with the first error.  Whatever is made of the
pages, and whoever asks for them, the same requests are sent: a machine that follows a
request goes through the course of the read.
-/

namespace ItemTable

/-! ## Courses -/

/-- Answer a request for a page. -/
def TableService.page
    {σ : Type}
    (service : TableService σ) :
    PageRequest → σ → Except ServiceError PageReply × σ
  | .query request, state => service.query request state
  | .scan request, state => service.scan request state

/-- How a read ends. -/
inductive Ending (ε : Type) where
  /-- The last page names no key. -/
  | complete
  | failed (error : ε)
  /-- No more pages may be fetched, although there are some. -/
  | cut

/-- The course of a read from a key on, of which the first page is asked for as given:
how many pages may be fetched, the state of the service, the requests that it is sent,
its replies, how the read ends, and the state afterwards. -/
inductive Course {σ : Type} (service : TableService σ) (first : PageRequest) :
    Nat → Item → σ → List Request → List PageReply → Ending ServiceError → σ → Prop
  | cut
      {key : Item}
      {state : σ} :
      Course service first 0 key state [] [] .cut state
  | failed
      {bound : Nat}
      {key : Item}
      {state after : σ}
      {error : ServiceError}
      (answer : service.page (first.withStart key) state = (.error error, after)) :
      Course service first (bound + 1) key state [(first.withStart key).request] []
        (.failed error) after
  | last
      {bound : Nat}
      {key : Item}
      {state after : σ}
      {reply : PageReply}
      (answer : service.page (first.withStart key) state = (.ok reply, after))
      (atEnd : reply.lastKey.isEmpty) :
      Course service first (bound + 1) key state [(first.withStart key).request] [reply]
        .complete after
  | more
      {bound : Nat}
      {key : Item}
      {state next after : σ}
      {reply : PageReply}
      {requests : List Request}
      {replies : List PageReply}
      {ending : Ending ServiceError}
      (answer : service.page (first.withStart key) state = (.ok reply, next))
      (further : ¬reply.lastKey.isEmpty)
      (others : Course service first bound reply.lastKey next requests replies ending after) :
      Course service first (bound + 1) key state
        ((first.withStart key).request :: requests) (reply :: replies) ending after

namespace Ending

/-- The same ending for a chain. -/
def ofService : Ending ServiceError → Ending ChainError
  | complete => complete
  | failed error => failed (.ofService error)
  | cut => cut

/-- The result of reading all pages if so much was found before the end. -/
def result {α : Type} (found : α) : Ending ChainError → Drained α
  | complete => .finished found
  | failed error => .failed error
  | cut => .unfinished

/-- The pages that are listed: those that were found, and the error behind them. -/
def listing {α : Type} (found : List α) : Ending ChainError → List (Except ChainError α)
  | failed error => found.map .ok ++ [.error error]
  | _ => found.map .ok

theorem map_result
    {α β : Type}
    (change : α → β)
    (found : α)
    (ending : Ending ChainError) :
    (ending.result found).map change = ending.result (change found) := by
  cases ending <;> rfl

theorem listing_cons
    {α : Type}
    (first : α)
    (found : List α)
    (ending : Ending ChainError) :
    ending.listing (first :: found) = .ok first :: ending.listing found := by
  cases ending <;> rfl

end Ending

/-- The cursor behind the last of the replies. -/
def Cursor.behind (cursor : Cursor) (replies : List PageReply) : Cursor :=
  replies.foldl (fun _ reply => .ofLastKey reply.lastKey) cursor

section

variable
    {σ : Type}
    {service : TableService σ}
    {first : PageRequest}
    {bound : Nat}
    {key : Item}
    {state after : σ}
    {requests : List Request}
    {replies : List PageReply}
    {ending : Ending ServiceError}

/-- Every read has a course. -/
theorem exists_course
    (service : TableService σ)
    (first : PageRequest)
    (bound : Nat)
    (key : Item)
    (state : σ) :
    ∃ requests replies ending after,
      Course service first bound key state requests replies ending after := by
  induction bound generalizing key state with
  | zero => exact ⟨_, _, _, _, .cut⟩
  | succ bound ih =>
      rcases answer : service.page (first.withStart key) state with ⟨error | reply, next⟩
      · exact ⟨_, _, _, _, .failed answer⟩
      · by_cases atEnd : reply.lastKey.isEmpty
        · exact ⟨_, _, _, _, .last answer atEnd⟩
        · rcases ih reply.lastKey next with ⟨requests, replies, ending, after, others⟩
          exact ⟨_, _, _, _, .more answer atEnd others⟩

/-- The first page is always asked for. -/
theorem Course.exists_requests_eq_cons
    (course : Course service first (bound + 1) key state requests replies ending after) :
    ∃ others, requests = (first.withStart key).request :: others := by
  cases course with
  | failed => exact ⟨_, rfl⟩
  | last => exact ⟨_, rfl⟩
  | more => exact ⟨_, rfl⟩

/-! ## Machines -/

/-- Call a machine again and again as long as there is more, and note what it finds and
how this ends. -/
def repeatWhile
    {α γ τ : Type}
    (call : γ → τ → Except ChainError α × γ × τ)
    (hasMore : γ → Bool) :
    Nat → γ → τ → List α × Ending ChainError × γ × τ
  | 0, machine, state => ([], .cut, machine, state)
  | bound + 1, machine, state =>
      match call machine state with
      | (.error error, machine, state) => ([], .failed error, machine, state)
      | (.ok found, machine, state) =>
          if hasMore machine then
            let (others, ending, machine, state) := repeatWhile call hasMore bound machine state
            (found :: others, ending, machine, state)
          else
            ([found], .complete, machine, state)

/-- A machine that is called again and again does the same with a recorded service. -/
theorem forget_repeatWhile
    {α γ : Type}
    {call : γ → σ × List Request → Except ChainError α × γ × σ × List Request}
    {plain : γ → σ → Except ChainError α × γ × σ}
    (same : ∀ machine state, forget (call machine state) = plain machine state.1)
    (hasMore : γ → Bool)
    (bound : Nat)
    (machine : γ)
    (state : σ × List Request) :
    repeatWhile plain hasMore bound machine state.1 =
      let (found, ending, next, after, _) := repeatWhile call hasMore bound machine state
      (found, ending, next, after) := by
  induction bound generalizing machine state with
  | zero => rfl
  | succ bound ih =>
      rw [repeatWhile, repeatWhile, ← same]
      rcases call machine state with ⟨error | found, next, after, log⟩
      · rfl
      · rw [forget]
        dsimp only
        split
        · rw [ih next (after, log)]
        · rfl

/-- A machine, as long as it holds something of itself, sends a request behind its cursor
with each call, finds something in the reply, and moves the cursor behind the page. -/
structure Follows
    {α γ : Type}
    (service : TableService σ)
    (first : PageRequest)
    (found : PageReply → α)
    (cursor : γ → Cursor)
    (holds : γ → Prop)
    (call : γ → σ × List Request → Except ChainError α × γ × σ × List Request) : Prop where
  failed :
    ∀ {machine : γ} {state : σ × List Request} {error : ServiceError} {after : σ},
      holds machine →
      service.page (first.withStart (cursor machine).start) state.1 = (.error error, after) →
      ∃ next, holds next ∧ cursor next = cursor machine ∧
        call machine state =
          (.error (.ofService error), next, after,
            state.2 ++ [(first.withStart (cursor machine).start).request])
  answered :
    ∀ {machine : γ} {state : σ × List Request} {reply : PageReply} {after : σ},
      holds machine →
      service.page (first.withStart (cursor machine).start) state.1 = (.ok reply, after) →
      ∃ next, holds next ∧ cursor next = .ofLastKey reply.lastKey ∧
        call machine state =
          (.ok (found reply), next, after,
            state.2 ++ [(first.withStart (cursor machine).start).request])

/-- Only what a machine does as long as it holds something matters. -/
theorem Follows.congr
    {α γ : Type}
    {found : PageReply → α}
    {cursor : γ → Cursor}
    {holds : γ → Prop}
    {call other : γ → σ × List Request → Except ChainError α × γ × σ × List Request}
    (follows : Follows service first found cursor holds call)
    (same : ∀ machine state, holds machine → other machine state = call machine state) :
    Follows service first found cursor holds other where
  failed fits answer := by
    rw [same _ _ fits]
    exact follows.failed fits answer
  answered fits answer := by
    rw [same _ _ fits]
    exact follows.answered fits answer

theorem Cursor.hasMore_ofLastKey (key : Item) : (ofLastKey key).hasMore = !key.isEmpty := by
  rw [ofLastKey]
  cases key.isEmpty <;> rfl

theorem Cursor.start_ofLastKey (further : ¬key.isEmpty) : (ofLastKey key).start = key := by
  rw [ofLastKey, if_neg further]
  rfl

/-- A machine that is called as long as there is more goes through the course. -/
theorem Follows.repeatWhile
    {α γ : Type}
    {found : PageReply → α}
    {cursor : γ → Cursor}
    {holds : γ → Prop}
    {call : γ → σ × List Request → Except ChainError α × γ × σ × List Request}
    (follows : Follows service first found cursor holds call)
    {machine : γ}
    (log : List Request)
    (fits : holds machine)
    (course : Course service first bound (cursor machine).start state requests replies ending
      after) :
    ∃ next, holds next ∧ cursor next = (cursor machine).behind replies ∧
      repeatWhile call (fun machine => (cursor machine).hasMore) bound machine (state, log) =
        (replies.map found, ending.ofService, next, after, log ++ requests) := by
  generalize begins : (cursor machine).start = key at course
  induction course generalizing machine log with
  | cut =>
      refine ⟨machine, fits, rfl, ?_⟩
      rw [List.append_nil]
      rfl
  | failed answer =>
      subst begins
      rcases @follows.failed _ (_, log) _ _ fits answer with ⟨next, fitsNext, same, sent⟩
      refine ⟨next, fitsNext, same, ?_⟩
      rw [ItemTable.repeatWhile, sent]
      rfl
  | last answer atEnd =>
      subst begins
      rcases @follows.answered _ (_, log) _ _ fits answer with ⟨next, fitsNext, moved, sent⟩
      refine ⟨next, fitsNext, moved, ?_⟩
      have noMore : ¬(cursor next).hasMore := by
        rw [moved, Cursor.hasMore_ofLastKey, atEnd]
        exact Bool.false_ne_true
      rw [ItemTable.repeatWhile, sent]
      dsimp only
      rw [if_neg noMore]
      rfl
  | more answer further others ih =>
      subst begins
      rcases @follows.answered _ (_, log) _ _ fits answer with ⟨next, fitsNext, moved, sent⟩
      have more : (cursor next).hasMore := by
        rw [moved, Cursor.hasMore_ofLastKey]
        simpa using further
      have behind := moved ▸ Cursor.start_ofLastKey further
      rcases ih (log ++ [_]) fitsNext behind with ⟨last, fitsLast, same, repeated⟩
      refine ⟨last, fitsLast, ?_, ?_⟩
      · rw [same, moved]
        rfl
      · rw [ItemTable.repeatWhile, sent]
        dsimp only
        rw [if_pos more, repeated, List.append_assoc]
        rfl

/-! ## Paginators -/

theorem TableService.send_record_eq
    {ρ α : Type}
    (wrap : ρ → Request)
    (call : ρ → σ → Except ServiceError α × σ)
    (request : ρ)
    (document : Document)
    (state : σ × List Request) :
    send (.ok request, document) (record wrap call) state =
      match call request state.1 with
      | (.error error, after) =>
          (.error (.ofService error), document, after, state.2 ++ [wrap request])
      | (.ok reply, after) => (.ok reply, document, after, state.2 ++ [wrap request]) := by
  rw [send]
  simp only [record]
  rcases call request state.1 with ⟨error | reply, after⟩ <;> rfl

/-- A document that makes a request for a page sends it, and makes it again. -/
theorem Document.Makes.readPage
    {kind : ReadKind}
    {document : Document}
    (makes : document.Makes kind first)
    (service : TableService σ)
    (state : σ × List Request) :
    ∃ compiled : Document,
      compiled.Makes kind first ∧
        service.recorded.readPage kind document state =
          match service.page first state.1 with
          | (.error error, after) =>
              (.error (.ofService error), compiled, after, state.2 ++ [first.request])
          | (.ok reply, after) =>
              (.ok (.ofReply reply), compiled, after, state.2 ++ [first.request]) := by
  cases makes with
  | @query compiled request done made =>
      refine ⟨compiled, .query (compile_compiled done) made, ?_⟩
      have sent := TableService.send_record_eq .query service.query request compiled state
      unfold TableService.readPage Document.queryRequest compileTo
      simp only [done, made, TableService.recorded, sent, TableService.page]
      rcases service.query request state.1 with ⟨error | reply, after⟩ <;> rfl
  | @scan compiled request done made =>
      refine ⟨compiled, .scan (compile_compiled done) made, ?_⟩
      have sent := TableService.send_record_eq .scan service.scan request compiled state
      unfold TableService.readPage Document.scanRequest compileTo
      simp only [done, made, TableService.recorded, sent, TableService.page]
      rcases service.scan request state.1 with ⟨error | reply, after⟩ <;> rfl

namespace Paginator

theorem nextPage_eq
    {τ : Type}
    (service : TableService τ)
    (paginator : Paginator)
    (state : τ) :
    paginator.nextPage service state =
      match service.readPage paginator.kind
          (paginator.document.withStart paginator.cursor.start) state with
      | (.error error, document, state) => (.error error, { paginator with document }, state)
      | (.ok page, document, state) =>
          (.ok page, { paginator with document, cursor := .ofLastKey page.lastKey }, state) :=
  rfl

/-- A paginator whose document makes a request follows it page by page. -/
theorem follows
    (service : TableService σ)
    (first : PageRequest) :
    Follows service first Page.ofReply Paginator.cursor
      (fun paginator => ∃ key, paginator.document.Makes paginator.kind (first.withStart key))
      (nextPage service.recorded) := by
  constructor
  · rintro paginator state error after ⟨key, makes⟩ answer
    have here := makes.withStart paginator.cursor.start
    rw [PageRequest.withStart_withStart] at here
    rcases here.readPage service state with ⟨compiled, again, sent⟩
    rw [answer] at sent
    refine ⟨{ paginator with document := compiled }, ⟨_, again⟩, rfl, ?_⟩
    rw [nextPage_eq, sent]
  · rintro paginator state reply after ⟨key, makes⟩ answer
    have here := makes.withStart paginator.cursor.start
    rw [PageRequest.withStart_withStart] at here
    rcases here.readPage service state with ⟨compiled, again, sent⟩
    rw [answer] at sent
    refine ⟨{ paginator with document := compiled, cursor := .ofLastKey reply.lastKey },
      ⟨_, again⟩, rfl, ?_⟩
    rw [nextPage_eq, sent]
    rfl

section

variable
    {τ : Type}
    (service : TableService τ)
    (bound : Nat)
    (paginator : Paginator)
    (state : τ)

/-- Listing the pages is fetching one after the other. -/
theorem stream_eq_repeatWhile :
    paginator.stream service bound state =
      let (pages, ending, next, after) :=
        repeatWhile (nextPage service) (fun paginator => paginator.cursor.hasMore) bound
          paginator state
      (ending.listing pages, next, after) := by
  induction bound generalizing paginator state with
  | zero => rfl
  | succ wanted ih =>
      rw [stream, repeatWhile]
      rcases paginator.nextPage service state with ⟨error | page, next, after⟩
      · rfl
      · dsimp only
        split
        · rw [ih]
          dsimp only
          rw [Ending.listing_cons]
        · rfl

/-- Reading all pages is fetching one after the other. -/
theorem drain_eq_repeatWhile :
    paginator.drain service bound state =
      let (pages, ending, next, after) :=
        repeatWhile (nextPage service) (fun paginator => paginator.cursor.hasMore) bound
          paginator state
      (ending.result pages, next, after) := by
  induction bound generalizing paginator state with
  | zero => rfl
  | succ wanted ih =>
      rw [drain, repeatWhile]
      rcases paginator.nextPage service state with ⟨error | page, next, after⟩
      · rfl
      · dsimp only
        split
        · rw [ih]
          dsimp only
          rw [Ending.map_result]
        · rfl

end

/-- However a paginator is read, it goes through the course of the request that its
document makes. -/
theorem takes_course
    {service : TableService σ}
    (paginator : Paginator)
    (makes : paginator.document.Makes paginator.kind first)
    (course : Course service first bound paginator.cursor.start state requests replies ending
      after) :
    let items := replies.flatMap PageReply.items
    let counts := replies.map fun reply => reply.count.toNat
    let pages := replies.map Page.ofReply
    ∃ next : Paginator,
      next.cursor = paginator.cursor.behind replies ∧
        paginator.collectAll service.recorded bound (state, []) =
          (ending.ofService.result items, next, after, requests) ∧
        paginator.countAll service.recorded bound (state, []) =
          (ending.ofService.result (total counts), next, after, requests) ∧
        paginator.stream service.recorded bound (state, []) =
          (ending.ofService.listing pages, next, after, requests) ∧
        repeatWhile (nextPage service.recorded) (fun paginator => paginator.cursor.hasMore) bound
            paginator (state, []) =
          (pages, ending.ofService, next, after, requests) := by
  intro items counts pages
  have begins : ∃ key, paginator.document.Makes paginator.kind (first.withStart key) :=
    ⟨first.start, by rwa [PageRequest.withStart_start]⟩
  rcases (follows service first).repeatWhile [] begins course with ⟨next, -, moved, repeated⟩
  rw [List.nil_append] at repeated
  have drained : paginator.drain service.recorded bound (state, []) =
      (ending.ofService.result pages, next, after, requests) := by
    rw [drain_eq_repeatWhile, repeated]
  have sameItems : pages.flatMap Page.items = items := List.flatMap_map _ _ _
  have sameCounts : pages.map Page.count = counts := List.map_map
  refine ⟨next, moved, ?_, ?_, ?_, repeated⟩
  · rw [collectAll, drained]
    dsimp only
    rw [Ending.map_result, sameItems]
  · rw [countAll, drained]
    dsimp only
    rw [Ending.map_result, sameCounts]
  · rw [stream_eq_repeatWhile, repeated]

end Paginator

end

end ItemTable
