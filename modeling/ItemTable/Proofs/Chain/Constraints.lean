import ItemTable.Proofs.Chain.Acceptance
import ItemTable.Proofs.Chain.Calls

/-!
# No constraint is dropped

Either the operation of a call refuses a chain, and then the call fails, nothing is sent
and the chain stays as it is; or the call sends requests of its operation, one for each
page or write, which carry every condition of the chain.
-/

namespace ItemTable

/-! ## Accounts -/

/-- What a call did with a chain: whether it failed, the chain afterwards, the requests
that were sent, and the number of pages or writes. -/
structure Accounts
    (chain : ChainState)
    (operation : Operation)
    (failed : Prop)
    (after : ChainState)
    (sent : List Request)
    (calls : Nat) : Prop where
  refused : chain.Refuses operation → failed ∧ after = chain ∧ sent = []
  accepted : ¬chain.Refuses operation →
    0 < calls ∧ sent.length = calls ∧
      ∀ request ∈ sent,
        request.Conveys operation chain.keyCondition chain.filter chain.condition

namespace Accounts

variable
    {σ : Type}
    {chain after : ChainState}
    {operation : Operation}
    {failed other : Prop}
    {sent : List Request}
    {calls : Nat}

theorem imp
    (accounts : Accounts chain operation failed after sent calls)
    (implies : failed → other) :
    Accounts chain operation other after sent calls where
  refused refuses := (accounts.refused refuses).imp_left implies
  accepted := accounts.accepted

theorem of_refuses
    (refuses : chain.Refuses operation)
    (isFailed : failed) :
    Accounts chain operation failed chain [] calls where
  refused _ := ⟨isFailed, rfl, rfl⟩
  accepted accepted := absurd refuses accepted

theorem of_accepted
    (accepted : ¬chain.Refuses operation)
    (some : sent ≠ [])
    (number : sent.length = calls)
    (conveys : ∀ request ∈ sent,
      request.Conveys operation chain.keyCondition chain.filter chain.condition) :
    Accounts chain operation failed after sent calls where
  refused refuses := absurd refuses accepted
  accepted _ := ⟨number ▸ List.length_pos_iff.mpr some, number, conveys⟩

theorem of_single
    {request : Request}
    (accepted : ¬chain.Refuses operation)
    (conveys : request.Conveys operation chain.keyCondition chain.filter chain.condition) :
    Accounts chain operation failed after [request] 1 := by
  apply of_accepted accepted (List.cons_ne_nil _ _) rfl
  intro other member
  rw [List.mem_singleton.mp member]
  exact conveys

theorem refuses_of_unfit (unfit : ¬chain.Fits operation) : chain.Refuses operation := by
  by_contra accepted
  exact unfit (ChainState.not_refuses_iff.mp accepted).1

theorem accepted_of_fits
    (fits : chain.Fits operation)
    (noQuery : operation ≠ .query) :
    ¬chain.Refuses operation := by
  rw [ChainState.not_refuses_iff]
  refine ⟨fits, ?_⟩
  rw [fits.keyCondition_eq_none noQuery]
  exact nofun

/-! ## Single items -/

/-- A call for a single item fails without a document for its chain, and otherwise sends
one request. -/
theorem of_document
    (name : String)
    (noQuery : operation ≠ .query)
    (stops : ∀ error,
      chain.document name operation none = .error error → failed ∧ sent = [])
    (sends : ∀ document,
      chain.Fits operation →
      chain.document name operation none = .ok document →
      document.Asks chain.keyCondition chain.filter chain.condition →
      ∃ request,
        sent = [request] ∧
          request.Conveys operation chain.keyCondition chain.filter chain.condition) :
    Accounts chain operation failed chain sent 1 := by
  by_cases fits : chain.Fits operation
  · rcases fits.exists_document name none with ⟨document, made, asks, -⟩
    rcases sends document fits made asks with ⟨request, isSent, conveys⟩
    rw [isSent]
    exact of_single (accepted_of_fits fits noQuery) conveys
  · rcases ChainState.document_eq_error fits name none with ⟨error, refused⟩
    rcases stops error refused with ⟨isFailed, unsent⟩
    rw [unsent]
    exact of_refuses (refuses_of_unfit fits) isFailed

theorem getOptional
    (table : Table σ)
    (chain : ChainState)
    (state : σ) :
    let run := table.recorded.getOptional chain (state, [])
    Accounts chain .getItem (Terminal.hasFailed run.1) chain run.2.2 1 := by
  intro run
  apply of_document table.name
  · nofun
  · intro error refused
    have stopped : run = (.error error, state, []) := by
      simp only [run, Table.getOptional, Table.recorded, refused]
    rw [stopped]
    exact ⟨⟨error, rfl⟩, rfl⟩
  · intro document fits made asks
    rw [fits.keyCondition_eq_none nofun, fits.filter_eq_none rfl,
      fits.condition_eq_none rfl] at asks ⊢
    simp only [run, Table.getOptional, Table.recorded, made]
    exact Document.Bears.getItem (.trees asks) table.service (state, [])

theorem get
    (table : Table σ)
    (chain : ChainState)
    (state : σ) :
    let run := table.recorded.get chain (state, [])
    Accounts chain .getItem (Terminal.hasFailed run.1) chain run.2.2 1 := by
  intro run
  have optional := getOptional table chain state
  simp only [run, Table.get]
  dsimp only at optional
  generalize table.recorded.getOptional chain (state, []) = answer at optional ⊢
  -- An item that is not there fails the call, but the request for it has been sent.
  rcases answer with ⟨error | found, next⟩
  · exact optional.imp fun _ => ⟨error, rfl⟩
  · cases found with
    | none => exact optional.imp fun _ => ⟨_, rfl⟩
    | some item =>
        apply optional.imp
        rintro ⟨error, ⟨⟩⟩

theorem put
    (table : Table σ)
    (chain : ChainState)
    (item : Item)
    (state : σ) :
    let run := table.recorded.put chain item (state, [])
    Accounts chain .putItem (Terminal.hasFailed run.1) chain run.2.2 1 := by
  intro run
  apply of_document table.name
  · nofun
  · intro error refused
    have stopped : run = (.error error, state, []) := by
      simp only [run, Table.put, Table.recorded, refused]
    rw [stopped]
    exact ⟨⟨error, rfl⟩, rfl⟩
  · intro document fits made asks
    rw [fits.keyCondition_eq_none nofun, fits.filter_eq_none rfl] at asks ⊢
    simp only [run, Table.put, Table.recorded, made]
    -- The item fills the document and leaves alone what it asks for.
    have filled : { document with item := item.extend document.item }.Bears none none
        chain.condition :=
      .trees ⟨asks.keyCondition, asks.filter, asks.condition, asks.names, asks.values⟩
    exact filled.putItem table.service (state, [])

theorem delete
    (table : Table σ)
    (chain : ChainState)
    (state : σ) :
    let run := table.recorded.delete chain (state, [])
    Accounts chain .deleteItem (Terminal.hasFailed run.1) chain run.2.2 1 := by
  intro run
  apply of_document table.name
  · nofun
  · intro error refused
    have stopped : run = (.error error, state, []) := by
      simp only [run, Table.delete, Table.recorded, refused]
    rw [stopped]
    exact ⟨⟨error, rfl⟩, rfl⟩
  · intro document fits made asks
    rw [fits.keyCondition_eq_none nofun, fits.filter_eq_none rfl] at asks ⊢
    simp only [run, Table.delete, Table.recorded, made]
    exact Document.Bears.deleteItem (.trees asks) table.service (state, [])

end Accounts

/-! ## Reads -/

/-- A paginator that cannot send its document stays where it is. -/
theorem Paginator.nextPage_of_compile_eq_error
    {σ : Type}
    {paginator : Paginator}
    {fault : KeyConditionFault}
    (refused : { paginator.document with start := paginator.cursor.start }.compile =
      .error fault)
    (service : TableService σ)
    (state : σ) :
    ∃ error next,
      paginator.nextPage service state = (.error error, next, state) ∧
        next.cursor = paginator.cursor := by
  rcases paginator with ⟨kind, document, cursor⟩
  unfold nextPage TableService.readPage
  cases kind with
  | query =>
      simp only [Document.queryRequest, Document.compileTo, refused, TableService.send]
      exact ⟨_, _, rfl, rfl⟩
  | scan =>
      simp only [Document.scanRequest, Document.compileTo, refused, TableService.send]
      exact ⟨_, _, rfl, rfl⟩

/-- What a chain begins a read with: an error, if it does not fit; a paginator that is
stuck, if its key condition is foreign; or one that is ready. -/
inductive Begins
    (chain : ChainState)
    (kind : ReadKind) :
    Except ChainError Paginator → Prop
  | unfit
      {error : ChainError}
      (refuses : chain.Refuses kind.operation) :
      Begins chain kind (.error error)
  | stuck
      {paginator : Paginator}
      {fault : KeyConditionFault}
      (refuses : chain.Refuses kind.operation)
      (fromCursor : paginator.cursor = chain.cursor)
      (refused : { paginator.document with start := paginator.cursor.start }.compile =
        .error fault) :
      Begins chain kind (.ok paginator)
  | ready
      {paginator : Paginator}
      (accepted : ¬chain.Refuses kind.operation)
      (unconditional : chain.condition = none)
      (sameKind : paginator.kind = kind)
      (ready : paginator.Ready chain.keyCondition chain.filter) :
      Begins chain kind (.ok paginator)

theorem Table.begins_paginator
    {σ : Type}
    (table : Table σ)
    (chain : ChainState)
    (kind : ReadKind)
    (select : Option Select) :
    Begins chain kind (table.paginator chain kind select) := by
  rw [paginator]
  by_cases fits : chain.Fits kind.operation
  · rcases fits.exists_document table.name select with ⟨document, made, asks, sameLimit⟩
    have isRead : kind.operation.isRead := by
      cases kind <;> rfl
    have noCondition : chain.condition = none := by
      cases kind <;> exact fits.condition_eq_none rfl
    have limited := fits.limit isRead
    rw [← sameLimit isRead] at limited
    rw [made, ok_bind]
    by_cases inLanguage : ∀ tree ∈ chain.keyCondition, tree.IsKeyCondition
    · refine .ready (ChainState.not_refuses_iff.mpr ⟨fits, inLanguage⟩) noCondition rfl ?_
      constructor
      · exact noCondition ▸ .trees asks
      · intro tree isKey
        exact Condition.checkKey_eq_ok_iff.mpr (inLanguage tree isKey)
      · intro limit asked
        exact (limited limit asked).2
      · rintro rfl
        exact fits.keyCondition_eq_none nofun
    · have refuses : chain.Refuses kind.operation := by
        by_contra accepted
        exact inLanguage (ChainState.not_refuses_iff.mp accepted).2
      push Not at inLanguage
      rcases inLanguage with ⟨tree, isKey, outside⟩
      rw [Option.mem_def] at isKey
      cases checked : tree.checkKey with
      | ok _ => exact absurd (Condition.checkKey_eq_ok_iff.mp checked) outside
      | error fault =>
          rw [isKey] at asks
          exact .stuck refuses rfl ((asks.withStart chain.cursor.start).compile_eq_error checked)
  · rcases ChainState.document_eq_error fits table.name select with ⟨error, refused⟩
    rw [refused]
    exact .unfit (Accounts.refuses_of_unfit fits)

namespace Accounts

variable {σ : Type}

theorem readPage
    (table : Table σ)
    (chain : ChainState)
    (kind : ReadKind)
    (select : Option Select)
    (state : σ) :
    let run := table.recorded.readPage chain kind select (state, [])
    Accounts chain kind.operation (Terminal.hasFailed run.1) run.2.1 run.2.2.2 1 := by
  intro run
  have begins := table.recorded.begins_paginator chain kind select
  simp only [run, Table.readPage]
  generalize table.recorded.paginator chain kind select = begun at begins
  cases begins with
  | unfit refuses => exact of_refuses refuses ⟨_, rfl⟩
  | @stuck paginator _ refuses fromCursor refused =>
      rcases Paginator.nextPage_of_compile_eq_error refused table.recorded.service (state, []) with
        ⟨error, next, stopped, sameCursor⟩
      simp only [stopped, sameCursor, fromCursor]
      exact of_refuses refuses ⟨error, rfl⟩
  | @ready paginator accepted unconditional sameKind ready =>
      rcases ready.nextPage table.service (state, []) with
        ⟨page, next, after, request, sent, -, -, conveys⟩
      have isSent : paginator.nextPage table.recorded.service (state, []) = _ := sent
      simp only [isSent]
      apply of_single accepted
      rw [unconditional, ← sameKind]
      exact conveys

theorem hasFailed_map
    {α β : Type}
    {result : Except ChainError α}
    {change : α → β}
    (isFailed : Terminal.hasFailed result) :
    Terminal.hasFailed (result.map change) := by
  rcases isFailed with ⟨error, rfl⟩
  exact ⟨error, rfl⟩

theorem readItems
    (table : Table σ)
    (chain : ChainState)
    (kind : ReadKind)
    (state : σ) :
    let run := table.recorded.readItems chain kind (state, [])
    Accounts chain kind.operation (Terminal.hasFailed run.1) run.2.1 run.2.2.2 1 :=
  (readPage table chain kind none state).imp hasFailed_map

/-- A read that is ready asks for each page that it lists. -/
theorem of_stream
    {chain after : ChainState}
    {kind : ReadKind}
    {failed : Prop}
    {paginator : Paginator}
    (accepted : ¬chain.Refuses kind.operation)
    (unconditional : chain.condition = none)
    (sameKind : paginator.kind = kind)
    (ready : paginator.Ready chain.keyCondition chain.filter)
    (service : TableService σ)
    (further : Nat)
    (state : σ) :
    let run := paginator.stream service.recorded (further + 1) (state, [])
    Accounts chain kind.operation failed after run.2.2.2 run.1.length := by
  intro run
  rcases ready.stream service (further + 1) (state, []) with ⟨requests, sent, number, conveys⟩
  have isSent : run.2.2.2 = requests := sent
  have some : requests ≠ [] := by
    rw [← List.length_pos_iff, number, List.length_pos_iff]
    exact Paginator.stream_ne_nil _ _ _ _
  rw [isSent]
  apply of_accepted accepted some number
  rw [unconditional, ← sameKind]
  exact conveys

theorem pages
    (table : Table σ)
    (chain : ChainState)
    (wanted : Option Nat)
    (state : σ)
    (some : 0 < wanted.getD (table.service.pageBound state)) :
    let run := table.recorded.pages chain wanted (state, [])
    Accounts chain (Table.readKind chain).operation
      (Terminal.hasFailed run.1 ∨ ∃ error others, run.1 = .ok (.error error :: others))
      run.2.1 run.2.2.2
      (table.recorded.pageCount chain (Table.readKind chain) none
        (wanted.getD (table.service.pageBound state)) (state, [])) := by
  intro run
  have begins := table.recorded.begins_paginator chain (Table.readKind chain) none
  simp only [run, Table.pages, Table.pageCount]
  generalize table.recorded.paginator chain (Table.readKind chain) none = begun at begins
  rcases Nat.exists_eq_add_one.mpr some with ⟨further, isSome⟩
  have sameBound : table.recorded.service.pageBound (state, []) = table.service.pageBound state :=
    rfl
  rw [sameBound, isSome]
  cases begins with
  | unfit refuses => exact of_refuses refuses (.inl ⟨_, rfl⟩)
  | @stuck paginator _ refuses fromCursor refused =>
      rcases Paginator.nextPage_of_compile_eq_error refused table.recorded.service (state, []) with
        ⟨error, next, stopped, sameCursor⟩
      simp only [Paginator.stream, stopped, sameCursor, fromCursor]
      exact of_refuses refuses (.inr ⟨error, [], rfl⟩)
  | ready accepted unconditional sameKind ready =>
      exact of_stream accepted unconditional sameKind ready table.service further state

/-- Reading all pages asks for as many pages as listing them does. -/
theorem readAll
    {α : Type}
    {change : List Page → α}
    {read : TableService (σ × List Request) → Nat → Paginator → σ × List Request →
      Drained α × Paginator × σ × List Request}
    (drains : ∀ service bound paginator state,
      read service bound paginator state =
        ((paginator.drain service bound state).1.map change,
          (paginator.drain service bound state).2))
    (table : Table σ)
    (chain : ChainState)
    (kind : ReadKind)
    (select : Option Select)
    (state : σ)
    (some : 0 < table.service.pageBound state) :
    let run := table.recorded.readAll chain kind select read (state, [])
    Accounts chain kind.operation (Terminal.hasStopped run.1) run.2.1 run.2.2.2
      (table.recorded.pageCount chain kind select (table.service.pageBound state)
        (state, [])) := by
  intro run
  have begins := table.recorded.begins_paginator chain kind select
  simp only [run, Table.readAll, Table.pageCount, drains]
  generalize table.recorded.paginator chain kind select = begun at begins
  rcases Nat.exists_eq_add_one.mpr some with ⟨further, isSome⟩
  have sameBound : table.recorded.service.pageBound (state, []) = table.service.pageBound state :=
    rfl
  rw [sameBound, isSome]
  cases begins with
  | unfit refuses => exact of_refuses refuses ⟨_, rfl⟩
  | @stuck paginator _ refuses fromCursor refused =>
      rcases Paginator.nextPage_of_compile_eq_error refused table.recorded.service (state, []) with
        ⟨error, next, stopped, sameCursor⟩
      simp only [Paginator.drain, stopped, sameCursor, fromCursor]
      exact of_refuses refuses ⟨error, rfl⟩
  | ready accepted unconditional sameKind ready =>
      simp only [Paginator.drain_snd_eq_stream_snd]
      exact of_stream accepted unconditional sameKind ready table.service further state

end Accounts

/-! ## All calls -/

/-- If the operation of a call refuses a chain, then the call fails, the chain stays as it
is and nothing is sent, and only then.  Otherwise one request is sent for each page or
write: a request of the operation that has a key condition, a filter and a write condition
exactly where the chain has one, and each of them, if it can be read at all, is read with
what the request says of its placeholders as the condition of the chain. -/
theorem perform_drops_no_constraint
    {σ : Type}
    {table : Table σ}
    {state : σ}
    (paged : 0 < table.service.pageBound state)
    (chain : ChainState)
    (terminal : Terminal) :
    let operation := terminal.operation chain
    let run := table.perform chain state terminal
    let recorded := table.recorded.perform chain (state, []) terminal
    let sent := recorded.2.2.2
    forget recorded = run ∧
      (chain.Refuses operation ↔ terminal.Fails run.1 ∧ run.2.1 = chain ∧ sent = []) ∧
      (¬chain.Refuses operation →
        sent ≠ [] ∧ sent.length = table.calls chain state terminal ∧
          ∀ request ∈ sent,
            request.Conveys operation chain.keyCondition chain.filter chain.condition) := by
  intro operation run recorded sent
  have same : forget recorded = run := table.forget_perform chain (state, []) terminal
  have accounts : Accounts chain operation (terminal.Fails recorded.1) recorded.2.1 sent
      (table.recorded.calls chain (state, []) terminal) := by
    cases terminal with
    | get => exact .get table chain state
    | getOptional => exact .getOptional table chain state
    | put item => exact .put table chain item state
    | delete => exact .delete table chain state
    | scan => exact .readItems table chain .scan state
    | query => exact .readItems table chain .query state
    | run => exact .readItems table chain (Table.readKind chain) state
    | count =>
        exact (Accounts.readPage table chain (Table.readKind chain) (some .count) state).imp
          Accounts.hasFailed_map
    | pages further =>
        apply Accounts.pages table chain (further.map (· + 1)) state
        cases further with
        | none => exact paged
        | some further => exact Nat.succ_pos further
    | scanAll => exact .readAll (fun _ _ _ _ => rfl) table chain .scan none state paged
    | queryAll => exact .readAll (fun _ _ _ _ => rfl) table chain .query none state paged
    | runAll =>
        exact .readAll (fun _ _ _ _ => rfl) table chain (Table.readKind chain) none state paged
    | countAll =>
        exact .readAll (fun _ _ _ _ => rfl) table chain (Table.readKind chain) (some .count) state
          paged
  rw [Table.recorded_calls] at accounts
  have sameResult : run.1 = recorded.1 := congrArg (fun run => run.1) same.symm
  have sameChain : run.2.1 = recorded.2.1 := congrArg (fun run => run.2.1) same.symm
  have someSent (accepted : ¬chain.Refuses operation) : sent ≠ [] := by
    rcases accounts.accepted accepted with ⟨positive, number, -⟩
    rw [← List.length_pos_iff, number]
    exact positive
  rw [sameResult, sameChain]
  refine ⟨same, ?_, ?_⟩
  · constructor
    · exact accounts.refused
    -- A call that is accepted may fail as well, but not before something is sent.
    · rintro ⟨-, -, unsent⟩
      by_contra accepted
      exact someSent accepted unsent
  · intro accepted
    exact ⟨someSent accepted, (accounts.accepted accepted).2⟩

/-- A chain with a key condition and a filter is refused by a scan, and a query sends it
in one request. -/
theorem perform_drops_no_constraint_author :
    let table := Table.ofName Memory.service "notes"
    let chain :=
      (ChainState.start.addKeyCondition
        (.compare (.path ⟨[.attribute "author"]⟩) .equal (.value (.string "a")))).addFilter
          (.test .attributeExists [.path ⟨[.attribute "text"]⟩])
    0 < table.service.pageBound Memory.start ∧
      (table.recorded.perform chain (Memory.start, []) .scanAll).2.2.2 = [] ∧
      (table.recorded.perform chain (Memory.start, []) .query).2.2.2.length = 1 := by
  intro table chain
  have paged : 0 < table.service.pageBound Memory.start := Nat.succ_pos _
  have refused : chain.Refuses .scan := .keyCondition nofun nofun
  have accepted : ¬chain.Refuses .query := by
    rw [ChainState.not_refuses_iff]
    refine ⟨⟨⟨fun _ => rfl, fun _ => rfl⟩, fun _ => rfl, nofun, fun _ => nofun⟩, ?_⟩
    rintro _ ⟨⟩
    exact .compare nofun (.ofItem "author") (.literal (.string "a"))
  refine ⟨paged, ?_, ?_⟩
  · exact ((perform_drops_no_constraint paged chain .scanAll).2.1.mp refused).2.2
  · exact ((perform_drops_no_constraint paged chain .query).2.2 accepted).2.1

end ItemTable
