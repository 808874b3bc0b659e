import ItemTable.Proofs.Chain.FullRead
import ItemTable.Proofs.Chain.Pagewise
import ItemTable.Proofs.Memory.Counts

/-!
# Counting is reading

A read that only counts sends another document than one that lists the items: it has no
projection, and it says that it counts.  It still takes the same pages and fails with
the same errors, and what it counts is what the other one lists.
-/

namespace ItemTable

/-! ## Courses without writes -/

section

variable
    {σ : Type}
    {service : TableService σ}
    {first second : PageRequest}
    {bound : Nat}
    {key : Item}
    {state after : σ}
    {requests : List Request}
    {replies : List PageReply}
    {ending : Ending ServiceError}
    {answers : Item → Except ServiceError PageReply}

/-- Where pages leave the state of the service, it stays the same, and every reply is an
answer from it. -/
theorem Course.of_answers
    (answered : ∀ key, service.page (first.withStart key) state = (answers key, state))
    (course : Course service first bound key state requests replies ending after) :
    after = state ∧ ∀ reply ∈ replies, ∃ key, answers key = .ok reply := by
  induction course with
  | cut => exact ⟨rfl, nofun⟩
  | failed answer =>
      rcases Prod.mk.inj ((answered _).symm.trans answer) with ⟨-, rfl⟩
      exact ⟨rfl, nofun⟩
  | last answer atEnd =>
      rcases Prod.mk.inj ((answered _).symm.trans answer) with ⟨isReply, rfl⟩
      refine ⟨rfl, ?_⟩
      rintro _ (_ | ⟨_, ⟨⟩⟩)
      exact ⟨_, isReply⟩
  | more answer further others ih =>
      rcases Prod.mk.inj ((answered _).symm.trans answer) with ⟨isReply, rfl⟩
      rcases ih answered with ⟨same, ofAnswers⟩
      refine ⟨same, ?_⟩
      intro reply member
      rcases List.mem_cons.mp member with rfl | behind
      · exact ⟨_, isReply⟩
      · exact ofAnswers reply behind

/-- A read whose answers name the same keys takes the same course. -/
theorem Course.map
    {change : PageReply → PageReply}
    (sameKey : ∀ reply, (change reply).lastKey = reply.lastKey)
    (answered : ∀ key, service.page (first.withStart key) state = (answers key, state))
    (changed : ∀ key,
      service.page (second.withStart key) state = ((answers key).map change, state))
    (course : Course service first bound key state requests replies ending after) :
    ∃ others, Course service second bound key state others (replies.map change) ending after := by
  have also {key : Item} {answer : Except ServiceError PageReply} {after : σ}
      (given : service.page (first.withStart key) state = (answer, after)) :
      service.page (second.withStart key) state = (answer.map change, after) := by
    rcases Prod.mk.inj ((answered key).symm.trans given) with ⟨rfl, rfl⟩
    exact changed key
  induction course with
  | cut => exact ⟨_, .cut⟩
  | failed answer => exact ⟨_, .failed (also answer)⟩
  | last answer atEnd =>
      refine ⟨_, .last (also answer) ?_⟩
      rwa [sameKey]
  | more answer further others ih =>
      have answerAlso := also answer
      rcases Prod.mk.inj ((answered _).symm.trans answer) with ⟨-, rfl⟩
      rcases ih answered changed also with ⟨requests, course⟩
      rw [← sameKey] at further course
      exact ⟨_, .more answerAlso further course⟩

/-- A read of the pages of a table comes to its end when the table has no more. -/
theorem Course.ends_of_run
    {storage : Storage}
    {asked : ReadRequest}
    {count : Nat}
    {pages : List ReadResult}
    (answered : ∀ key, service.page (first.withStart key) state = (answers key, state))
    (lists : ∀ key reply, answers key = .ok reply →
      ∃ result, storage.read { asked with start := key } = .ok result ∧
        reply.lastKey = result.lastKey)
    (run : storage.readPages { asked with start := key } (List.replicate count []) = .ok pages)
    (ends : ∃ last ∈ pages.getLast?, last.lastKey.isEmpty)
    (course : Course service first (count + 1) key state requests replies ending after) :
    ending ≠ .cut := by
  induction count generalizing key pages requests replies with
  | zero =>
      cases course with
      | failed => nofun
      | last => nofun
      | more answer further others =>
          rcases Prod.mk.inj ((answered _).symm.trans answer) with ⟨isReply, -⟩
          rcases lists _ _ isReply with ⟨result, read, sameKey⟩
          rcases bind_eq_ok.mp run with ⟨page, listed, ⟨⟩⟩
          rcases ends with ⟨_, ⟨⟩, atEnd⟩
          cases listed.symm.trans read
          rw [sameKey] at further
          exact absurd atEnd further
  | succ count ih =>
      cases course with
      | failed => nofun
      | last => nofun
      | more answer further others =>
          rcases Prod.mk.inj ((answered _).symm.trans answer) with ⟨isReply, rfl⟩
          rcases lists _ _ isReply with ⟨result, read, sameKey⟩
          rcases bind_eq_ok.mp run with ⟨page, listed, behind⟩
          cases listed.symm.trans read
          rw [sameKey] at further others
          rw [if_neg further] at behind
          rcases bind_eq_ok.mp behind with ⟨rest, restRun, ⟨⟩⟩
          apply ih restRun _ others
          rcases ends with ⟨final, isLast, atEnd⟩
          refine ⟨final, ?_, atEnd⟩
          cases rest with
          | nil =>
              cases isLast
              exact absurd atEnd further
          | cons next rest => exact isLast

end

namespace ReadTerms

variable
    {terms : ReadTerms}
    {document : Document}
    {memory after : Memory}
    {first : PageRequest}
    {key : Item}
    {requests : List Request}
    {replies : List PageReply}
    {ending : Ending ServiceError}

/-- There are at most as many pages as a memory allows for. -/
theorem ending_ne_cut
    (reachable : memory.Reachable)
    (positive : ∀ limit ∈ document.limit, 0 < limit)
    (answered : ∀ key, Memory.service.page (first.withStart key) memory =
      (terms.answer (document.withStart key) memory, memory))
    (course : Course Memory.service first (Memory.service.pageBound memory) key memory requests
      replies ending after) :
    ending ≠ .cut := by
  -- A first page that fails ends the read at once.
  have fails (failed : ∀ reply, terms.answer (document.withStart key) memory ≠ .ok reply) :
      ending ≠ .cut := by
    cases course with
    | failed => nofun
    | last => nofun
    | more answer =>
        rcases Prod.mk.inj ((answered _).symm.trans answer) with ⟨isReply, -⟩
        exact absurd isReply (failed _)
  rcases terms.fails_or_lists document memory with failed | ⟨storage, asked, lists⟩
  · apply fails
    intro reply isReply
    rcases failed key with ⟨error, isError⟩
    cases isError.symm.trans isReply
  · by_cases accepts : storage.Accepts { asked with start := key }
    · rcases accepts with ⟨view, seen, starts⟩
      have isPositive : ∀ limit ∈ ({ asked with start := key } : ReadRequest).limit, 0 < limit := by
        change ∀ limit ∈ asked.limit, 0 < limit
        rwa [lists.limit]
      have sound := reachable.sound lists.found
      rcases Storage.exists_pages sound seen starts isPositive with ⟨pages, run, ends, -⟩
      have enough : (view.remaining storage asked.forward key).length ≤ memory.totalCount :=
        Nat.le_trans (Storage.remaining_length_le storage view _ _)
          (Memory.length_items_le_totalCount lists.found)
      apply Course.ends_of_run answered _ (run memory.totalCount enough) ends course
      intro key reply isReply
      rcases lists.page key reply isReply with ⟨result, read, replied⟩
      rcases bind_eq_ok.mp replied with ⟨_, -, ⟨⟩⟩
      exact ⟨result, read, rfl⟩
    · apply fails
      intro reply isReply
      rcases lists.page key reply isReply with ⟨result, read, -⟩
      exact accepts (Storage.exists_read_iff_accepts.mp ⟨result, read⟩)

end ReadTerms

namespace ChainState

/-- A memory says the same to a read that only counts, but for the items. -/
theorem answer_counting
    (chain : ChainState)
    (name : String)
    (kind : ReadKind)
    (key : Item)
    (memory : Memory) :
    (chain.readTerms (some .count)).answer
        ((chain.asking name kind (some .count)).withStart key) memory =
      ((chain.readTerms none).answer ((chain.asking name kind none).withStart key) memory).map
        PageReply.counted := by
  have table (select : Option Select) :
      ((chain.asking name kind select).withStart key).tableName = name := by
    cases kind <;> rfl
  have reading : (chain.readTerms (some .count)).reading = (chain.readTerms none).reading := rfl
  have listing (storage : Storage) :
      Memory.listing storage ((chain.asking name kind (some .count)).withStart key)
          (chain.readTerms (some .count)).keyCondition =
        Memory.listing storage ((chain.asking name kind none).withStart key)
          (chain.readTerms none).keyCondition := by
    cases kind <;> rfl
  rw [ReadTerms.answer, ReadTerms.answer, table, table, reading]
  cases memory.table name with
  | error error => rfl
  | ok storage =>
      rw [ok_bind, ok_bind, listing]
      cases (chain.readTerms none).reading with
      | error error => rfl
      | ok _ =>
          rw [ok_bind, ok_bind]
          cases Memory.listing storage ((chain.asking name kind none).withStart key)
              (chain.readTerms none).keyCondition with
          | error error => rfl
          | ok result =>
              have counts : (chain.asking name kind (some .count)).select = some .count := by
                cases kind <;> rfl
              have sameCapacity : (chain.asking name kind (some .count)).capacity =
                  (chain.asking name kind none).capacity := by
                cases kind <;> rfl
              have sameConsistency : (chain.asking name kind (some .count)).consistent =
                  (chain.asking name kind none).consistent := by
                cases kind <;> rfl
              exact Memory.pageReply_counting ((table _).trans (table _).symm) sameCapacity
                sameConsistency counts _

/-- The pages of a read count their items. -/
theorem page_counts
    {chain : ChainState}
    {name : String}
    {kind : ReadKind}
    {select : Option Select}
    {key : Item}
    {memory : Memory}
    {reply : PageReply}
    (accepted : ¬chain.Refuses kind.operation)
    (reachable : memory.Reachable)
    (few : memory.totalCount < 2 ^ 31)
    (answered :
      (chain.readTerms select).answer ((chain.asking name kind select).withStart key) memory =
        .ok reply) :
    (Page.ofReply reply).Counts chain.limit select := by
  have limited := positive_limit accepted
  rcases (chain.readTerms select).fails_or_lists (chain.asking name kind select) memory with
    failed | ⟨storage, asked, lists⟩
  · rcases failed key with ⟨error, isError⟩
    cases isError.symm.trans answered
  · cases kind <;> exact lists.counts reachable few limited answered

end ChainState

/-! ## One page -/

section

variable
    {chain : ChainState}
    {kind : ReadKind}
    {select : Option Select}
    {table : Table Memory}
    {memory : Memory}

/-- A page of a chain is the answer to its request. -/
theorem Table.readPage_eq
    (accepted : ¬chain.Refuses kind.operation)
    (bounded : ∀ filter ∈ chain.filter, filter.isBounded)
    (counts : select = none ∨ select = some .count)
    (inMemory : table.service = Memory.service) :
    table.readPage chain kind select memory =
      match (chain.readTerms select).answer
          ((chain.asking table.name kind select).withStart chain.cursor.start) memory with
      | .error error => (.error (.ofService error), chain, memory)
      | .ok reply =>
          (.ok (.ofReply reply), chain.withCursor (.ofLastKey reply.lastKey), memory) := by
  rcases ChainState.makes_pageRequest accepted table.name select with ⟨made, makes⟩
  have follows := Table.follows made makes id
  have isChain : ∃ cursor, chain = chain.withCursor cursor := ⟨chain.cursor, rfl⟩
  have page := ChainState.page_eq accepted bounded counts table.name chain.cursor.start memory
  rw [← inMemory] at page
  have forgotten := forget_readPage table chain (memory, []) kind select
  dsimp only at forgotten
  rw [← forgotten]
  cases answered : (chain.readTerms select).answer
      ((chain.asking table.name kind select).withStart chain.cursor.start) memory with
  | error error =>
      rw [answered] at page
      rcases @follows.failed chain (memory, []) error memory isChain page with
        ⟨_, ⟨cursor, rfl⟩, same, sent⟩
      change cursor = chain.cursor at same
      subst same
      dsimp only at sent
      rw [Except.map_id] at sent
      exact congrArg forget sent
  | ok reply =>
      rw [answered] at page
      rcases @follows.answered chain (memory, []) reply memory isChain page with
        ⟨_, ⟨cursor, rfl⟩, moved, sent⟩
      change cursor = .ofLastKey reply.lastKey at moved
      subst moved
      dsimp only at sent
      rw [Except.map_id] at sent
      exact congrArg forget sent

/-- A page that is counted is a page that is read. -/
theorem Table.count_eq
    (reachable : memory.Reachable)
    (few : memory.totalCount < 2 ^ 31)
    (inMemory : table.service = Memory.service)
    (accepted : ¬chain.Refuses (readKind chain).operation)
    (bounded : ∀ filter ∈ chain.filter, filter.isBounded) :
    let page := table.run chain memory
    table.count chain memory = (page.1.map List.length, page.2) := by
  intro page
  have isPage : page = table.run chain memory := rfl
  rw [run, readItems, readPage_eq accepted bounded (.inl rfl) inMemory] at isPage
  rw [count, readPage_eq accepted bounded (.inr rfl) inMemory, ChainState.answer_counting, isPage]
  cases answered : (chain.readTerms none).answer
      ((chain.asking table.name (readKind chain) none).withStart chain.cursor.start) memory with
  | error error => rfl
  | ok reply =>
      have counts := ChainState.page_counts accepted reachable few answered
      have found : reply.count.toNat = reply.items.length := counts.items
      change (Except.ok reply.count.toNat, _) = (Except.ok reply.items.length, _)
      rw [found]
      rfl

/-- A page that is read or counted counts its items. -/
theorem Table.counts_of_readPage
    {page : Page}
    (reachable : memory.Reachable)
    (few : memory.totalCount < 2 ^ 31)
    (inMemory : table.service = Memory.service)
    (accepted : ¬chain.Refuses kind.operation)
    (bounded : ∀ filter ∈ chain.filter, filter.isBounded)
    (counts : select = none ∨ select = some .count)
    (isPage : (table.readPage chain kind select memory).1 = .ok page) :
    page.Counts chain.limit select := by
  rw [readPage_eq accepted bounded counts inMemory] at isPage
  cases answer : (chain.readTerms select).answer
      ((chain.asking table.name kind select).withStart chain.cursor.start) memory with
  | error error =>
      rw [answer] at isPage
      cases isPage
  | ok reply =>
      rw [answer] at isPage
      cases isPage
      exact ChainState.page_counts accepted reachable few answer

end

/-! ## All pages -/

theorem total_map_length {α : Type} (lists : List (List α)) :
    total (lists.map List.length) = lists.flatten.length := by
  induction lists with
  | nil => rfl
  | cons list lists ih => rw [List.map_cons, total, ih, List.flatten_cons, List.length_append]

/-- A read that lists the items and one that only counts them take one course. -/
theorem ChainState.exists_common_course
    {chain : ChainState}
    {kind : ReadKind}
    {memory : Memory}
    (reachable : memory.Reachable)
    (few : memory.totalCount < 2 ^ 31)
    (accepted : ¬chain.Refuses kind.operation)
    (bounded : ∀ filter ∈ chain.filter, filter.isBounded)
    (name : String)
    (bound : Nat) :
    ∃ requests counting replies, ∃ ending : Ending ServiceError,
      Course Memory.service (chain.pageRequest name kind none) bound chain.cursor.start memory
          requests replies ending memory ∧
        Course Memory.service (chain.pageRequest name kind (some .count)) bound
          chain.cursor.start memory counting (replies.map PageReply.counted) ending memory ∧
        (∀ reply ∈ replies, reply.count.toNat = reply.items.length) ∧
        (bound = Memory.service.pageBound memory → ending ≠ .cut) := by
  have answered (key : Item) := page_eq accepted bounded (.inl rfl) name key memory
  have counted (key : Item) := page_eq accepted bounded (.inr rfl) name key memory
  simp only [answer_counting] at counted
  rcases exists_course Memory.service (chain.pageRequest name kind none) bound
      chain.cursor.start memory with ⟨requests, replies, ending, after, course⟩
  rcases course.of_answers answered with ⟨rfl, ofAnswers⟩
  have sameKey (reply : PageReply) : reply.counted.lastKey = reply.lastKey := rfl
  rcases course.map sameKey answered counted with ⟨counting, counts⟩
  refine ⟨requests, counting, replies, ending, course, counts, ?_, ?_⟩
  · intro reply member
    rcases ofAnswers reply member with ⟨key, isReply⟩
    exact (page_counts accepted reachable few isReply).items
  · rintro rfl
    have positive : ∀ limit ∈ (chain.asking name kind none).limit, 0 < limit := by
      have limited := positive_limit accepted
      cases kind <;> exact limited
    exact ReadTerms.ending_ne_cut reachable positive answered course

/-- A chain that is run and one that is counted find the same pages, end in the same way,
and leave the same cursor. -/
theorem Table.exists_common_pages
    {chain : ChainState}
    {table : Table Memory}
    {memory : Memory}
    (reachable : memory.Reachable)
    (few : memory.totalCount < 2 ^ 31)
    (inMemory : table.service = Memory.service)
    (accepted : ¬chain.Refuses (readKind chain).operation)
    (bounded : ∀ filter ∈ chain.filter, filter.isBounded)
    (bound : Nat) :
    let hasMore := fun chain : ChainState => chain.cursor.hasMore
    ∃ pages : List (List Item), ∃ ending next,
      repeatWhile table.run hasMore bound chain memory = (pages, ending, next, memory) ∧
        repeatWhile table.count hasMore bound chain memory =
          (pages.map List.length, ending, next, memory) ∧
        (bound = table.service.pageBound memory →
          table.runAll chain memory = (ending.result pages.flatten, next, memory) ∧
            table.countAll chain memory = (ending.result pages.flatten.length, next, memory) ∧
            ending ≠ .cut) := by
  intro hasMore
  rcases ChainState.makes_pageRequest accepted table.name none with ⟨made, makes⟩
  rcases ChainState.makes_pageRequest accepted table.name (some .count) with
    ⟨madeCounting, makesCounting⟩
  have common := ChainState.exists_common_course reachable few accepted bounded table.name bound
  rw [← inMemory] at common
  rcases common with ⟨requests, counting, replies, ending, course, courseCounting, sized, uncut⟩
  rcases @PageTerminal.finds_course _ _ _ _ _ .run _ _ _ _ _ _ made makes course with
    ⟨run, runAll⟩
  rcases @PageTerminal.finds_course _ _ _ _ _ .count _ _ _ _ _ _ madeCounting makesCounting
      courseCounting with ⟨count, countAll⟩
  have sameCursor :
      chain.cursor.behind (replies.map PageReply.counted) = chain.cursor.behind replies :=
    List.foldl_map
  have sameCounts :
      (replies.map PageReply.counted).map PageTerminal.count.found =
        (replies.map PageReply.items).map List.length := by
    rw [List.map_map, List.map_map]
    exact List.map_congr_left sized
  rw [sameCounts, sameCursor] at count countAll
  refine ⟨replies.map PageReply.items, ending.ofService, _, run, count, fun enough => ?_⟩
  have counted := countAll enough
  change table.countAll chain memory =
    (ending.ofService.result (total ((replies.map PageReply.items).map List.length)), _, _)
    at counted
  rw [total_map_length] at counted
  refine ⟨runAll enough, counted, ?_⟩
  cases ending with
  | complete => nofun
  | failed error => nofun
  | cut => exact absurd rfl (uncut enough)

/-- Counting agrees with reading, from any cursor on and on any table or index: all pages
at once or one after the other, a read that only counts finds as many items as the read
that lists them, fails with the same errors, and leaves the same cursor.  Every page of
either counts its items. -/
theorem counting_agrees_with_reading
    {chain : ChainState}
    {table : Table Memory}
    {memory : Memory}
    (reachable : memory.Reachable)
    (few : memory.totalCount < 2 ^ 31)
    (inMemory : table.service = Memory.service)
    (accepted : ¬chain.Refuses (Table.readKind chain).operation)
    (bounded : ∀ filter ∈ chain.filter, filter.isBounded) :
    let all := table.runAll chain memory
    let page := table.run chain memory
    let hasMore := fun chain : ChainState => chain.cursor.hasMore
    let pages := fun bound => repeatWhile table.run hasMore bound chain memory
    all.1 ≠ .unfinished ∧
      table.countAll chain memory = (all.1.map List.length, all.2) ∧
      table.count chain memory = (page.1.map List.length, page.2) ∧
      (∀ bound,
        repeatWhile table.count hasMore bound chain memory =
          ((pages bound).1.map List.length, (pages bound).2)) ∧
      ∀ select page,
        select = none ∨ select = some .count →
        (table.readPage chain (Table.readKind chain) select memory).1 = .ok page →
        page.Counts chain.limit select := by
  intro all page hasMore pages
  have common := Table.exists_common_pages reachable few inMemory accepted bounded
  have both :
      all.1 ≠ .unfinished ∧ table.countAll chain memory = (all.1.map List.length, all.2) := by
    rcases common (table.service.pageBound memory) with ⟨found, ending, next, -, -, whole⟩
    rcases whole rfl with ⟨listed, counted, uncut⟩
    have isAll : all = (ending.result found.flatten, next, memory) := listed
    rw [isAll, counted, Ending.map_result]
    refine ⟨?_, rfl⟩
    cases ending with
    | complete => nofun
    | failed error => nofun
    | cut => exact absurd rfl uncut
  refine ⟨both.1, both.2, ?_, ?_, ?_⟩
  · exact Table.count_eq reachable few inMemory accepted bounded
  · intro bound
    rcases common bound with ⟨found, ending, next, listed, counted, -⟩
    have isPages : pages bound = (found, ending, next, memory) := listed
    rw [isPages, counted]
  · intro select page counts isPage
    exact Table.counts_of_readPage reachable few inMemory accepted bounded counts isPage

/-- The late pages of a notebook behind a page that is not there, counted one by one. -/
theorem counting_agrees_with_reading_notes :
    let table := Table.ofName Memory.service "notes"
    let memory := notebook [noted "1" "y", noted "2" "y", noted "4" "x", noted "10" "y"]
    let chain := lateNotes.withCursor
      (.more (.ofList [("author", .string "a"), ("page", .number "5")]))
    let all := table.runAll chain memory
    ¬chain.Refuses (Table.readKind chain).operation ∧
      all.1 ≠ .unfinished ∧
      table.countAll chain memory = (all.1.map List.length, all.2) := by
  intro table memory chain all
  have accepted : ¬chain.Refuses (Table.readKind chain).operation := by
    rw [ChainState.not_refuses_iff]
    constructor
    · constructor
      · exact ⟨fun _ => rfl, fun _ => rfl⟩
      · exact fun _ => rfl
      · nofun
      · rintro _ _ ⟨⟩
        decide
    · rintro _ ⟨⟩
      exact .and (.compare nofun (.ofItem _) (.literal _))
        (.compare nofun (.ofItem _) (.literal _))
  have few : memory.totalCount < 2 ^ 31 := by decide +kernel
  have bounded : ∀ filter ∈ chain.filter, filter.isBounded := by
    rintro _ ⟨⟩
    rfl
  rcases counting_agrees_with_reading (notebook_reachable _) few (show table.service = _ from rfl)
    accepted bounded with ⟨ends, counted, -⟩
  exact ⟨accepted, ends, counted⟩

end ItemTable
