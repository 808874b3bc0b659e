import ItemTable.Proofs.Chain.Asking
import ItemTable.Proofs.Chain.Calls
import ItemTable.Proofs.Service.Course
import ItemTable.Scripted

/-!
# One machine behind all reads

The pages of a chain are collected, counted, listed, or asked for one after the other,
each time with a document that is made anew.  All these ways take the same course: they
send the same requests and stop at the same place.
-/

namespace ItemTable

/-! ## Calls for one page -/

/-- A call that reads a chain, one page or all of them. -/
inductive PageTerminal where
  | scan
  | query
  | run
  | count

namespace PageTerminal

/-- The read of a chain that a call asks for. -/
def kind (chain : ChainState) : PageTerminal → ReadKind
  | scan => .scan
  | query => .query
  | run | count => Table.readKind chain

/-- What a call asks for of each item. -/
def select : PageTerminal → Option Select
  | count => some .count
  | scan | query | run => none

/-- What a call finds. -/
def Result : PageTerminal → Type
  | count => Nat
  | scan | query | run => List Item

/-- What a call finds in a reply; a negative count is none. -/
def found : (terminal : PageTerminal) → PageReply → terminal.Result
  | scan, reply | query, reply | run, reply => reply.items
  | count, reply => reply.count.toNat

/-- What a call finds on several pages. -/
def together : (terminal : PageTerminal) → List terminal.Result → terminal.Result
  | scan, found | query, found | run, found => found.flatten
  | count, found => total found

variable {τ : Type} (table : Table τ)

/-- Read one page of a chain. -/
def one : (terminal : PageTerminal) → ChainState → τ →
    Except ChainError terminal.Result × ChainState × τ
  | scan => table.scan
  | query => table.query
  | run => table.run
  | count => table.count

/-- Read all remaining pages of a chain. -/
def all : (terminal : PageTerminal) → ChainState → τ → Drained terminal.Result × ChainState × τ
  | scan => table.scanAll
  | query => table.queryAll
  | run => table.runAll
  | count => table.countAll

end PageTerminal

/-! ## Documents of chains -/

namespace ChainState

/-- The document of a read depends on the cursor for the key to go on from only. -/
theorem document_withCursor
    (chain : ChainState)
    (cursor : Cursor)
    (name : String)
    (kind : ReadKind)
    (select : Option Select) :
    (chain.withCursor cursor).document name kind.operation select =
      (chain.document name kind.operation select).map (·.withStart cursor.start) := by
  have same : (chain.withCursor cursor).check kind.operation = chain.check kind.operation := rfl
  rw [document, document, same]
  cases chain.check kind.operation with
  | error error => rfl
  | ok _ => cases kind <;> rfl

/-- The request of a chain begins behind its cursor. -/
theorem start_pageRequest
    (chain : ChainState)
    (name : String)
    (kind : ReadKind)
    (select : Option Select) :
    (chain.pageRequest name kind select).start = chain.cursor.start := by
  cases kind <;> rfl

end ChainState

/-! ## Chains -/

section

variable
    {σ α : Type}
    {table : Table σ}
    {chain : ChainState}
    {kind : ReadKind}
    {select : Option Select}
    {document : Document}
    {first : PageRequest}

/-- A chain whose document makes a request follows it page by page. -/
theorem Table.follows
    (made : chain.document table.name kind.operation select = .ok document)
    (makes : document.Makes kind first)
    (read : Page → α) :
    Follows table.service first (fun reply => read (.ofReply reply)) ChainState.cursor
      (fun other => ∃ cursor, other = chain.withCursor cursor)
      fun other state =>
        let run := table.recorded.readPage other kind select state
        (run.1.map read, run.2) := by
  have begins (cursor : Cursor) :
      table.recorded.paginator (chain.withCursor cursor) kind select =
        .ok ⟨kind, document.withStart cursor.start, cursor⟩ := by
    have same : table.recorded.name = table.name := rfl
    rw [paginator, same, ChainState.document_withCursor, made]
    rfl
  have paginators := Paginator.follows table.service first
  constructor
  · rintro _ state error after ⟨cursor, rfl⟩ answer
    rcases @paginators.failed ⟨kind, document.withStart cursor.start, cursor⟩ state error after
        ⟨cursor.start, makes.withStart _⟩ answer with ⟨next, -, same, sent⟩
    refine ⟨chain.withCursor cursor, ⟨cursor, rfl⟩, rfl, ?_⟩
    have isSent : Paginator.nextPage table.recorded.service _ state = _ := sent
    dsimp only
    rw [readPage, begins]
    dsimp only
    rw [isSent]
    dsimp only
    rw [same]
    rfl
  · rintro _ state reply after ⟨cursor, rfl⟩ answer
    rcases @paginators.answered ⟨kind, document.withStart cursor.start, cursor⟩ state reply after
        ⟨cursor.start, makes.withStart _⟩ answer with ⟨next, -, moved, sent⟩
    refine ⟨chain.withCursor (.ofLastKey reply.lastKey), ⟨_, rfl⟩, rfl, ?_⟩
    have isSent : Paginator.nextPage table.recorded.service _ state = _ := sent
    dsimp only
    rw [readPage, begins]
    dsimp only
    rw [isSent]
    dsimp only
    rw [moved]
    rfl

theorem Table.readAll_of_document
    (made : chain.document table.name kind.operation select = .ok document)
    (read : TableService σ → Nat → Paginator → σ → Drained α × Paginator × σ)
    (state : σ) :
    table.readAll chain kind select read state =
      let run := read table.service (table.service.pageBound state)
        ⟨kind, document, chain.cursor⟩ state
      (run.1, chain.withCursor run.2.1.cursor, run.2.2) := by
  rw [readAll, paginator, made]
  rfl

/-- Each call for one page follows the request of the chain. -/
theorem PageTerminal.follows
    {terminal : PageTerminal}
    (made : chain.document table.name (terminal.kind chain).operation terminal.select =
      .ok document)
    (makes : document.Makes (terminal.kind chain) first) :
    Follows table.service first terminal.found ChainState.cursor
      (fun other => ∃ cursor, other = chain.withCursor cursor) (terminal.one table.recorded) := by
  cases terminal with
  | scan => exact Table.follows made makes Page.items
  | query => exact Table.follows made makes Page.items
  | run =>
      apply (Table.follows made makes Page.items).congr
      rintro _ state ⟨cursor, rfl⟩
      rfl
  | count =>
      apply (Table.follows made makes Page.count).congr
      rintro _ state ⟨cursor, rfl⟩
      rfl

/-- A chain that is read page by page, or all at once, goes through the course of its
request. -/
theorem PageTerminal.takes_course
    {terminal : PageTerminal}
    {bound : Nat}
    {state after : σ}
    {requests : List Request}
    {replies : List PageReply}
    {ending : Ending ServiceError}
    (made : chain.document table.name (terminal.kind chain).operation terminal.select =
      .ok document)
    (makes : document.Makes (terminal.kind chain) first)
    (course : Course table.service first bound chain.cursor.start state requests replies ending
      after) :
    let found := replies.map terminal.found
    let next := chain.withCursor (chain.cursor.behind replies)
    repeatWhile (terminal.one table.recorded) (fun chain => chain.cursor.hasMore) bound chain
        (state, []) =
      (found, ending.ofService, next, after, requests) ∧
    (bound = table.service.pageBound state →
      terminal.all table.recorded chain (state, []) =
        (ending.ofService.result (terminal.together found), next, after, requests)) := by
  intro found next
  constructor
  · have holds : ∃ cursor, chain = chain.withCursor cursor := ⟨chain.cursor, rfl⟩
    rcases (PageTerminal.follows made makes).repeatWhile [] holds course with
      ⟨_, ⟨cursor, rfl⟩, moved, repeated⟩
    rw [List.nil_append] at repeated
    rw [repeated]
    exact congrArg (fun cursor => (_, _, chain.withCursor cursor, _, _)) moved
  · rintro rfl
    rcases Paginator.takes_course ⟨terminal.kind chain, document, chain.cursor⟩ makes course with
      ⟨last, moved, collected, counted, -⟩
    have whole
        {α : Type}
        (read : TableService (σ × List Request) → Nat → Paginator → σ × List Request →
          Drained α × Paginator × σ × List Request)
        (result : Drained α)
        (isRead : read table.recorded.service (table.service.pageBound state)
          ⟨terminal.kind chain, document, chain.cursor⟩ (state, []) =
            (result, last, after, requests)) :
        table.recorded.readAll chain (terminal.kind chain) terminal.select read (state, []) =
          (result, next, after, requests) := by
      have remade : chain.document table.recorded.name (terminal.kind chain).operation
          terminal.select = .ok document := made
      have sameBound : table.recorded.service.pageBound (state, []) =
          table.service.pageBound state := rfl
      rw [Table.readAll_of_document remade, sameBound, isRead]
      dsimp only
      rw [moved]
    cases terminal with
    | scan => exact whole Paginator.collectAll _ collected
    | query => exact whole Paginator.collectAll _ collected
    | run => exact whole Paginator.collectAll _ collected
    | count => exact whole Paginator.countAll _ counted

/-- A recorded table reads one page as the table does. -/
theorem PageTerminal.forget_one
    (terminal : PageTerminal)
    (table : Table σ)
    (chain : ChainState)
    (state : σ × List Request) :
    forget (terminal.one table.recorded chain state) = terminal.one table chain state.1 := by
  cases terminal with
  | scan =>
      rw [one, one, Table.scan, Table.scan, Table.readItems, Table.readItems,
        ← Table.forget_readPage]
      rfl
  | query =>
      rw [one, one, Table.query, Table.query, Table.readItems, Table.readItems,
        ← Table.forget_readPage]
      rfl
  | run =>
      rw [one, one, Table.run, Table.run, Table.readItems, Table.readItems, ← Table.forget_readPage]
      rfl
  | count =>
      rw [one, one, Table.count, Table.count, ← Table.forget_readPage]
      rfl

/-- A recorded table reads all pages as the table does. -/
theorem PageTerminal.forget_all
    (terminal : PageTerminal)
    (table : Table σ)
    (chain : ChainState)
    (state : σ × List Request) :
    forget (terminal.all table.recorded chain state) = terminal.all table chain state.1 := by
  cases terminal with
  | scan => exact Table.forget_collectAll table chain state .scan
  | query => exact Table.forget_collectAll table chain state .query
  | run => exact Table.forget_collectAll table chain state (Table.readKind chain)
  | count => exact Table.forget_countAll table chain state

/-- The same without a record of the requests. -/
theorem PageTerminal.finds_course
    {terminal : PageTerminal}
    {bound : Nat}
    {state after : σ}
    {requests : List Request}
    {replies : List PageReply}
    {ending : Ending ServiceError}
    (made : chain.document table.name (terminal.kind chain).operation terminal.select =
      .ok document)
    (makes : document.Makes (terminal.kind chain) first)
    (course : Course table.service first bound chain.cursor.start state requests replies ending
      after) :
    let found := replies.map terminal.found
    let next := chain.withCursor (chain.cursor.behind replies)
    repeatWhile (terminal.one table) (fun chain => chain.cursor.hasMore) bound chain state =
      (found, ending.ofService, next, after) ∧
    (bound = table.service.pageBound state →
      terminal.all table chain state =
        (ending.ofService.result (terminal.together found), next, after)) := by
  intro found next
  rcases takes_course made makes course with ⟨repeated, whole⟩
  constructor
  · have plain := forget_repeatWhile (terminal.forget_one table)
      (fun chain => chain.cursor.hasMore) bound chain (state, [])
    rw [repeated] at plain
    exact plain
  · intro enough
    have plain := terminal.forget_all table chain (state, [])
    rw [whole enough] at plain
    exact plain.symm

end

/-! ## All ways -/

/-- A read that does not refuse a chain makes a request of it.  Behind the cursor of the
chain the request has a course, with at most so many pages.  The course is what is gone
through, and the requests of the course are what is sent, when all pages are collected,
when they are counted, when they are listed, when one is fetched after the other as long
as there is more, and when the chain reads one page after the other, anew each time, or
all of them. -/
theorem reads_take_one_course
    {σ : Type}
    {chain : ChainState}
    {terminal : PageTerminal}
    (accepted : ¬chain.Refuses (terminal.kind chain).operation)
    (table : Table σ)
    (bound : Nat)
    (state : σ) :
    ∃ document first requests replies ending after,
      chain.document table.name (terminal.kind chain).operation terminal.select =
          .ok document ∧
        document.Makes (terminal.kind chain) first ∧
        first.start = chain.cursor.start ∧
        Course table.service first bound first.start state requests replies ending after ∧
        (0 < bound → ∃ others, requests = first.request :: others) ∧
        (let paginator : Paginator := ⟨terminal.kind chain, document, chain.cursor⟩
        let service := table.service.recorded
        let items := replies.flatMap PageReply.items
        let counts := replies.map fun reply => reply.count.toNat
        let pages := replies.map Page.ofReply
        let hasMore := fun paginator : Paginator => paginator.cursor.hasMore
        ∃ next : Paginator,
          next.cursor = chain.cursor.behind replies ∧
            paginator.collectAll service bound (state, []) =
              (ending.ofService.result items, next, after, requests) ∧
            paginator.countAll service bound (state, []) =
              (ending.ofService.result (total counts), next, after, requests) ∧
            paginator.stream service bound (state, []) =
              (ending.ofService.listing pages, next, after, requests) ∧
            repeatWhile (Paginator.nextPage service) hasMore bound paginator (state, []) =
              (pages, ending.ofService, next, after, requests)) ∧
        (let found := replies.map terminal.found
        let next := chain.withCursor (chain.cursor.behind replies)
        repeatWhile (terminal.one table.recorded) (fun chain => chain.cursor.hasMore) bound chain
            (state, []) =
          (found, ending.ofService, next, after, requests) ∧
        (bound = table.service.pageBound state →
          terminal.all table.recorded chain (state, []) =
            (ending.ofService.result (terminal.together found), next, after, requests))) := by
  rcases ChainState.makes_pageRequest accepted table.name terminal.select with ⟨made, makes⟩
  have begins := chain.start_pageRequest table.name (terminal.kind chain) terminal.select
  generalize chain.pageRequest table.name (terminal.kind chain) terminal.select = first
    at makes begins
  rcases exists_course table.service first bound first.start state with
    ⟨requests, replies, ending, after, course⟩
  refine ⟨_, first, requests, replies, ending, after, made, makes, begins, course, ?_, ?_, ?_⟩
  · intro positive
    rcases Nat.exists_eq_add_one.mpr positive with ⟨further, rfl⟩
    rw [← first.withStart_start]
    exact course.exists_requests_eq_cons
  · rw [begins] at course
    exact Paginator.takes_course ⟨terminal.kind chain, _, chain.cursor⟩ makes course
  · rw [begins] at course
    exact PageTerminal.takes_course made makes course

/-- An item with a letter for its key. -/
def letter (text : String) : Item :=
  .ofList [("letter", .string text)]

/-- A page with one letter, behind which there are more. -/
def letterPage (text : String) : ScriptedReply :=
  .output (PageReply.toJson ⟨[letter text], 1, 1, letter text, none⟩)

/-- A chain that reads one letter a page, behind the letter a. -/
def singly : ChainState :=
  { ChainState.start with limit := some 1, cursor := .more (letter "a") }

/-- Letters are read until the service fails.  Page by page as all at once, a request is
sent behind each letter known, and the chain is left behind the last one. -/
theorem reads_take_one_course_letters :
    let table := Table.ofName Scripted.service "letters"
    let state := Scripted.start
      [letterPage "b", letterPage "c", .failure (.ofCode .internal "down")]
    let asked := fun text =>
      ((singly.pageRequest "letters" .scan none).withStart (letter text)).request
    let whole := table.recorded.runAll singly (state, [])
    ¬singly.Refuses (PageTerminal.run.kind singly).operation ∧
      whole.2.1.cursor = .more (letter "c") ∧
      whole.2.2.2 = [asked "a", asked "b", asked "c"] ∧
      (repeatWhile table.recorded.run (fun chain => chain.cursor.hasMore)
        (table.service.pageBound state) singly (state, [])).2.2.2.2 = whole.2.2.2 := by
  intro table state asked whole
  have accepted : ¬singly.Refuses (PageTerminal.run.kind singly).operation := by
    rw [ChainState.not_refuses_iff]
    refine ⟨⟨⟨nofun, nofun⟩, nofun, nofun, ?_⟩, nofun⟩
    rintro - limit ⟨⟩
    decide
  rcases @reads_take_one_course _ singly .run accepted table (table.service.pageBound state) state
    with ⟨_, _, requests, _, _, _, -, -, -, -, -, -, repeated, together⟩
  have wholeSent : whole.2.2.2 = requests := congrArg (fun run => run.2.2.2) (together rfl)
  refine ⟨accepted, by decide +kernel, by decide +kernel, ?_⟩
  rw [wholeSent]
  exact congrArg (fun run => run.2.2.2.2) repeated

end ItemTable
