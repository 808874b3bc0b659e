import ItemTable.Proofs.Storage.Lookup
import ItemTable.Proofs.Storage.Rows

/-!
# Reading page by page

A table is read page by page when each page is read from the last key of the one
before, until a page comes with an empty last key.  `Storage.readPages` is such a
run with writes between the pages.

Each page of a run lists rows behind those of the pages before, so a run lists
no row twice, whatever is written meanwhile.  The last key of a page stands for
the position of its last row, and what stays in the table has to come up once
the run has passed its position.  If nothing is written, the pages cut the rows
of one read without a limit.
-/

namespace ItemTable

namespace ReadView

variable {view : ReadView} {limit : Nat} {rows : List Row}

/-! ## One page -/

theorem page_of_lt (short : rows.length < limit) :
    view.page (some limit) rows = { items := rows.map Prod.snd, lastKey := ∅ } := by
  have whole : (rows.map Prod.snd).take limit = rows.map Prod.snd :=
    List.take_of_length_le (by simp [Nat.le_of_lt short])
  simp only [page, whole, if_neg (Nat.not_le_of_lt short)]

/-- A full page ends with a row whose key it names. -/
theorem page_of_le
    (positive : 0 < limit)
    (full : limit ≤ rows.length) :
    ∃ before last after,
      rows = before ++ last :: after ∧
        before.length + 1 = limit ∧
        (view.page (some limit) rows).items = (before ++ [last]).map Prod.snd ∧
        (view.page (some limit) rows).lastKey = view.resumptionKey last.2 := by
  have inside : limit - 1 < rows.length := by omega
  have cut : rows.take limit = rows.take (limit - 1) ++ [rows[limit - 1]] := by
    have step := List.take_append_getElem inside
    rw [Nat.sub_add_cancel positive] at step
    exact step.symm
  refine ⟨rows.take (limit - 1), rows[limit - 1], rows.drop limit, ?_, ?_, ?_, ?_⟩
  · have split : rows.drop (limit - 1) = rows[limit - 1] :: rows.drop (limit - 1 + 1) :=
      List.drop_eq_getElem_cons inside
    rw [Nat.sub_add_cancel positive] at split
    rw [← split, List.take_append_drop]
  · rw [List.length_take]
    omega
  · rw [← cut, List.map_take]
    rfl
  · simp only [page, if_pos full, ← List.map_take, cut, List.map_append, List.map_cons,
      List.map_nil, List.getLast?_append, List.getLast?_singleton, Option.some_or,
      Option.map_some, Option.getD_some]

/-- How a page is cut from the rows that remain. -/
inductive Cut
    (view : ReadView)
    (limit : Nat)
    (rows : List Row)
    (page : ReadResult) : Prop where
  /-- All rows fit with room left, and no key is named. -/
  | last
      (short : rows.length < limit)
      (items : page.items = rows.map Prod.snd)
      (ends : page.lastKey.isEmpty)
  /-- The page is full, and its key has the position of its last row. -/
  | full
      {before after : List Row}
      {last : Row}
      (split : rows = before ++ last :: after)
      (length : before.length + 1 = limit)
      (items : page.items = (before ++ [last]).map Prod.snd)
      (more : page.lastKey.isEmpty = false)
      (placed : view.position? page.lastKey = some last.1)

end ReadView

namespace Storage

/-! ## Runs -/

/-- The table after some writes. -/
def afterAll (storage : Storage) (writes : List Write) : Storage :=
  writes.foldl after storage

/-- Read page by page.  Each batch of writes is made behind a page that names a
key to go on from; the run ends with a page that names none, or when there is no
batch left. -/
def readPages
    (storage : Storage)
    (request : ReadRequest) :
    List (List Write) → Except KeyError (List ReadResult)
  | [] => do
      let page ← storage.read request
      return [page]
  | writes :: batches => do
      let page ← storage.read request
      if page.lastKey.isEmpty then
        return [page]
      else
        let request := { request with start := page.lastKey }
        let pages ← (storage.afterAll writes).readPages request batches
        return page :: pages

variable {storage : Storage} {request : ReadRequest} {view : ReadView}

theorem Sound.afterAll
    (sound : storage.Sound)
    (writes : List Write) :
    (storage.afterAll writes).Sound ∧
      (storage.afterAll writes).schema = storage.schema ∧
      (storage.afterAll writes).indexes = storage.indexes := by
  induction writes generalizing storage with
  | nil => exact ⟨sound, rfl, rfl⟩
  | cons write rest ih =>
      rcases after_schema storage write with ⟨schema, indexes⟩
      rcases ih (sound.after write) with ⟨restSound, restSchema, restIndexes⟩
      exact ⟨restSound, restSchema.trans schema, restIndexes.trans indexes⟩

theorem Reachable.afterAll
    (reachable : storage.Reachable)
    (writes : List Write) :
    (storage.afterAll writes).Reachable := by
  induction writes generalizing storage with
  | nil => exact reachable
  | cons write rest ih => exact ih (.write reachable write)

theorem readPages_of_last
    {page : ReadResult}
    (answered : storage.read request = .ok page)
    (last : page.lastKey.isEmpty)
    (batches : List (List Write)) :
    storage.readPages request batches = .ok [page] := by
  cases batches with
  | nil =>
      rw [readPages, answered]
      rfl
  | cons writes batches =>
      rw [readPages, answered]
      exact if_pos last

theorem readPages_of_more
    {page : ReadResult}
    {pages : List ReadResult}
    {writes : List Write}
    {batches : List (List Write)}
    (answered : storage.read request = .ok page)
    (more : page.lastKey.isEmpty = false)
    (rest :
      (storage.afterAll writes).readPages { request with start := page.lastKey } batches =
        .ok pages) :
    storage.readPages request (writes :: batches) = .ok (page :: pages) := by
  rw [readPages, answered]
  change (if page.lastKey.isEmpty then _ else _) = _
  rw [more, if_neg Bool.false_ne_true, rest]
  rfl

/-! ## From one page to the next -/

/-- What remains behind a key with the position of a row are the rows that follow. -/
theorem remaining_behind
    {forward : Bool}
    {start key : Item}
    {before after : List Row}
    {last : Row}
    (sound : storage.Sound)
    (keys : storage.schema = view.table)
    (split : view.remaining storage forward start = before ++ last :: after)
    (present : key.isEmpty = false)
    (placed : view.position? key = some last.1) :
    view.remaining storage forward key = after := by
  have member : last ∈ view.remaining storage forward start := by
    rw [split]
    exact List.mem_append_right _ List.mem_cons_self
  have behind := ((ReadView.mem_remaining sound keys).mp member).2
  have sorted := ReadView.remaining_sorted sound keys forward start
  rw [split] at sorted
  rw [← filter_behind sorted, ← split, ReadView.remaining, ReadView.remaining,
    List.filter_filter]
  apply List.filter_congr
  intro row _
  rw [ReadView.isBehind_iff present placed]
  cases precedes : directed forward last.1 row.1 with
  | lt => rw [ReadView.isBehind_trans behind precedes, Bool.and_true]
  | eq => rfl
  | gt => rfl

/-- An accepted read with a limit cuts a page from the rows that remain. -/
theorem exists_cut
    {limit : Nat}
    (sound : storage.Sound)
    (seen : storage.view request = .ok view)
    (starts : view.Starts request.start)
    (limited : request.limit = some limit)
    (positive : 0 < limit) :
    ∃ page,
      storage.read request = .ok page ∧
        view.Cut limit (view.remaining storage request.forward request.start) page := by
  have answered := read_eq seen starts
  rw [limited] at answered
  refine ⟨_, answered, ?_⟩
  rcases Nat.lt_or_ge (view.remaining storage request.forward request.start).length limit with
    short | full
  · rw [ReadView.page_of_lt short]
    exact .last short rfl rfl
  · rcases view.page_of_le positive full with ⟨before, last, after, split, length, items, lastKey⟩
    have member : last ∈ view.remaining storage request.forward request.start := by
      rw [split]
      exact List.mem_append_right _ List.mem_cons_self
    rcases (ReadView.mem_remaining sound (view_keys seen).1).mp member with ⟨⟨-, -, placed⟩, -⟩
    refine .full split length items ?_ ?_
    · rw [lastKey]
      exact ReadView.resumptionKey_not_isEmpty placed
    · rw [lastKey, ReadView.position?_resumptionKey, placed]

/-! ## Runs without writes -/

/-- Without writes, the pages of a run cut the rows that remain. -/
theorem readPages_cut
    {limit : Nat}
    (sound : storage.Sound)
    (seen : storage.view request = .ok view)
    (starts : view.Starts request.start)
    (limited : request.limit = some limit)
    (positive : 0 < limit) :
    ∃ pages,
      (∀ count,
        (view.remaining storage request.forward request.start).length ≤ count →
          storage.readPages request (List.replicate count []) = .ok pages) ∧
        (∃ last ∈ pages.getLast?, last.lastKey.isEmpty) ∧
        (∀ page ∈ pages,
          page.items.length ≤ limit ∧
            (page.lastKey.isEmpty = false ↔ page.items.length = limit)) ∧
        pages.flatMap (·.items) =
          (view.remaining storage request.forward request.start).map Prod.snd := by
  induction size : (view.remaining storage request.forward request.start).length
    using Nat.strongRecOn generalizing request with
  | ind size ih =>
      subst size
      rcases exists_cut sound seen starts limited positive with ⟨page, answered, cut⟩
      cases cut with
      | last short items ends =>
          have length : page.items.length < limit := by rwa [items, List.length_map]
          refine ⟨[page], fun count _ => readPages_of_last answered ends _, ⟨page, rfl, ends⟩,
            ?_, ?_⟩
          · intro only member
            rw [List.mem_singleton] at member
            subst member
            refine ⟨Nat.le_of_lt length, ?_, fun equal => absurd equal (Nat.ne_of_lt length)⟩
            intro more
            rw [ends] at more
            cases more
          · rw [List.flatMap_cons, List.flatMap_nil, List.append_nil, items]
      | @full before after last split length items more placed =>
          have rest := remaining_behind sound (view_keys seen).1 split more placed
          have nextStarts : view.Starts page.lastKey := .inr (by rw [placed]; rfl)
          obtain ⟨pages, run, ends, bounded, concat⟩ :=
            @ih after.length (by rw [split, List.length_append, List.length_cons]; omega)
              { request with start := page.lastKey } seen nextStarts limited (by rw [rest])
          refine ⟨page :: pages, ?_, ?_, ?_, ?_⟩
          · intro count enough
            rw [split, List.length_append, List.length_cons] at enough
            cases count with
            | zero => omega
            | succ count => exact readPages_of_more answered more (run count (by omega))
          · rcases ends with ⟨final, isLast, empty⟩
            refine ⟨final, ?_, empty⟩
            cases pages with
            | nil => cases isLast
            | cons next pages => exact isLast
          · intro next member
            rcases List.mem_cons.mp member with rfl | member
            · rw [items, List.length_map, List.length_append, List.length_singleton, length]
              exact ⟨Nat.le_refl limit, fun _ => rfl, fun _ => more⟩
            · exact bounded next member
          · rw [List.flatMap_cons, concat, split, rest, items, ← List.map_append,
              List.append_assoc, List.singleton_append]

/-- Without writes, a run with or without a limit lists the rows that remain. -/
theorem exists_pages
    (sound : storage.Sound)
    (seen : storage.view request = .ok view)
    (starts : view.Starts request.start)
    (positive : ∀ limit ∈ request.limit, 0 < limit) :
    ∃ pages,
      (∀ count,
        (view.remaining storage request.forward request.start).length ≤ count →
          storage.readPages request (List.replicate count []) = .ok pages) ∧
        (∃ last ∈ pages.getLast?, last.lastKey.isEmpty) ∧
        pages.flatMap (·.items) =
          (view.remaining storage request.forward request.start).map Prod.snd := by
  cases limited : request.limit with
  | none =>
      have answered := read_eq seen starts
      rw [limited] at answered
      refine ⟨_, fun count _ => readPages_of_last answered rfl _, ⟨_, rfl, rfl⟩, ?_⟩
      exact List.append_nil _
  | some limit =>
      rcases readPages_cut sound seen starts limited (positive limit limited) with
        ⟨pages, run, ends, -, concat⟩
      exact ⟨pages, run, ends, concat⟩

theorem remaining_length_le
    (storage : Storage)
    (view : ReadView)
    (forward : Bool)
    (start : Item) :
    (view.remaining storage forward start).length ≤ storage.items.length := by
  have candidates (ofIndex : Bool) (partition : Option KeyValue) :
      (storage.candidates ofIndex partition).length ≤ storage.items.length := by
    unfold Storage.candidates
    split
    · rename_i value
      cases found : storage.partition? value with
      | none => exact Nat.zero_le _
      | some partition =>
          rcases Option.map_eq_some_iff.mp found with ⟨entry, first, rfl⟩
          have member := List.mem_of_find?_eq_some first
          rw [Storage.items, List.flatMap_def]
          refine (List.sublist_flatten_of_mem ?_).length_le
          exact List.mem_map.mpr ⟨entry, member, rfl⟩
    · exact Nat.le_refl _
  calc
    (view.remaining storage forward start).length ≤ (view.rows storage).length := by
      apply Nat.le_trans (List.length_filter_le _ _)
      cases forward with
      | true => exact Nat.le_refl _
      | false => exact Nat.le_of_eq List.length_reverse
    _ ≤ (storage.candidates view.index.isSome view.partition).length := by
      rw [ReadView.rows, selected, List.length_mergeSort]
      exact Nat.le_trans (List.length_filterMap_le _ _) (List.length_filter_le _ _)
    _ ≤ storage.items.length := candidates _ _

/-- Paging loses and repeats nothing.  The pages of an accepted read hold no more
items than the limit, name a key to go on from exactly if they are full, come to
an end, and list what the read lists without a limit. -/
theorem pages_concat
    (reachable : storage.Reachable)
    (accepted : storage.Accepts request)
    {limit : Nat}
    (positive : 0 < limit) :
    ∃ whole pages,
      storage.read { request with limit := none } = .ok whole ∧
        (∀ count, storage.items.length ≤ count →
          storage.readPages { request with limit := some limit } (List.replicate count []) =
            .ok pages) ∧
        (∃ last ∈ pages.getLast?, last.lastKey.isEmpty) ∧
        (∀ page ∈ pages,
          page.items.length ≤ limit ∧
            (page.lastKey.isEmpty = false ↔ page.items.length = limit)) ∧
        pages.flatMap (·.items) = whole.items := by
  rcases accepted with ⟨view, seen, starts⟩
  rcases @readPages_cut storage { request with limit := some limit } view limit reachable.sound seen
      starts rfl positive with ⟨pages, run, ends, bounded, concat⟩
  have whole := @read_eq storage { request with limit := none } view seen starts
  refine ⟨_, pages, whole, fun count enough => run count ?_, ends, bounded, concat⟩
  exact Nat.le_trans (remaining_length_le storage view _ _) enough

/-- An item of a table whose keys are letters. -/
def lettered (letter : String) : Item :=
  (∅ : Item).insert "letter" (.string letter)

/-- A write that nothing refuses. -/
def unchecked (item : Item) : Write :=
  @Write.put Empty item fun _ => .ok ()

/-- A table of three letters. -/
def letters : Storage :=
  (create ⟨⟨"letter", .string⟩, none⟩).afterAll
    [unchecked (lettered "b"), unchecked (lettered "a"), unchecked (lettered "c")]

/-- A read of all letters, from the last to the first. -/
def lettersBackward : ReadRequest where
  index := none
  partition := none
  sort := none
  forward := false
  limit := some 1
  start := ∅

theorem letters_reachable : letters.Reachable :=
  (Reachable.create _).afterAll _

/-- The letters behind the last one, on pages of two. -/
theorem pages_concat_letters :
    ∃ whole pages,
      letters.read { lettersBackward with start := lettered "c", limit := none } = .ok whole ∧
        (∀ count, letters.items.length ≤ count →
          letters.readPages { lettersBackward with start := lettered "c", limit := some 2 }
            (List.replicate count []) = .ok pages) ∧
        (∃ last ∈ pages.getLast?, last.lastKey.isEmpty) ∧
        (∀ page ∈ pages,
          page.items.length ≤ 2 ∧ (page.lastKey.isEmpty = false ↔ page.items.length = 2)) ∧
        pages.flatMap (·.items) = whole.items :=
  @pages_concat letters { lettersBackward with start := lettered "c" } letters_reachable
    ⟨_, rfl, .inr rfl⟩ 2 (by decide)

/-! ## Runs with writes between the pages -/

/-- What the pages of a run list: rows behind the start in strict order and, once
the run has come to its end, every row that was there at each page. -/
structure Lists
    (view : ReadView)
    (storage : Storage)
    (request : ReadRequest)
    (batches : List (List Write))
    (pages : List ReadResult)
    (rows : List Row) : Prop where
  items : pages.flatMap (·.items) = rows.map Prod.snd
  sorted : rows.Pairwise (Row.Precedes request.forward)
  placed : ∀ row ∈ rows, view.position? row.2 = some row.1
  behind : ∀ row ∈ rows, view.isBehind request.forward request.start row
  complete :
    (∃ last ∈ pages.getLast?, last.lastKey.isEmpty) →
      ∀ row,
        view.selects row.2 →
          view.position? row.2 = some row.1 →
            view.isBehind request.forward request.start row →
              (∀ served < pages.length,
                row.2 ∈ (storage.afterAll (batches.take served).flatten).items) →
                row ∈ rows

/-- The last page of a run lists the rows that remain. -/
theorem Lists.last
    {page : ReadResult}
    {batches : List (List Write)}
    (sound : storage.Sound)
    (keys : storage.schema = view.table)
    (items :
      page.items = (view.remaining storage request.forward request.start).map Prod.snd) :
    Lists view storage request batches [page]
      (view.remaining storage request.forward request.start) where
  items := by rw [List.flatMap_cons, List.flatMap_nil, List.append_nil, items]
  sorted := ReadView.remaining_sorted sound keys _ _
  placed := fun row member => ((ReadView.mem_remaining sound keys).mp member).1.2.2
  behind := fun row member => ((ReadView.mem_remaining sound keys).mp member).2
  complete := by
    intro _ row selected placed behind present
    refine (ReadView.mem_remaining sound keys).mpr ⟨⟨?_, selected, placed⟩, behind⟩
    exact present 0 Nat.zero_lt_one

/-- A run that stops at a full page has listed the first of the rows that remain. -/
theorem Lists.stopped
    {page : ReadResult}
    {batches : List (List Write)}
    {first after : List Row}
    (sound : storage.Sound)
    (keys : storage.schema = view.table)
    (split : view.remaining storage request.forward request.start = first ++ after)
    (items : page.items = first.map Prod.snd)
    (more : page.lastKey.isEmpty = false) :
    Lists view storage request batches [page] first where
  items := by rw [List.flatMap_cons, List.flatMap_nil, List.append_nil, items]
  sorted := by
    have sorted := ReadView.remaining_sorted sound keys request.forward request.start
    rw [split] at sorted
    exact (List.pairwise_append.mp sorted).1
  placed := by
    intro row member
    have remains := List.mem_append_left after member
    rw [← split] at remains
    exact ((ReadView.mem_remaining sound keys).mp remains).1.2.2
  behind := by
    intro row member
    have remains := List.mem_append_left after member
    rw [← split] at remains
    exact ((ReadView.mem_remaining sound keys).mp remains).2
  complete := by
    rintro ⟨_, ⟨⟩, empty⟩
    change page.lastKey.isEmpty = true at empty
    rw [more] at empty
    cases empty

/-- A run that goes on lists the first of the rows that remain and then rows behind
them, among them what the page left out and the writes left in place. -/
theorem Lists.cons
    {page : ReadResult}
    {pages : List ReadResult}
    {writes : List Write}
    {batches : List (List Write)}
    {before after later : List Row}
    {last : Row}
    (sound : storage.Sound)
    (keys : storage.schema = view.table)
    (split : view.remaining storage request.forward request.start = before ++ last :: after)
    (items : page.items = (before ++ [last]).map Prod.snd)
    (more : page.lastKey.isEmpty = false)
    (placed : view.position? page.lastKey = some last.1)
    (rest :
      Lists view (storage.afterAll writes) { request with start := page.lastKey } batches pages
        later) :
    Lists view storage request (writes :: batches) (page :: pages)
      (before ++ last :: later) := by
  have sorted := ReadView.remaining_sorted sound keys request.forward request.start
  have remains (row : Row) :
      row ∈ before ++ last :: after ↔
        (row.2 ∈ storage.items ∧ view.selects row.2 ∧ view.position? row.2 = some row.1) ∧
          view.isBehind request.forward request.start row :=
    split ▸ ReadView.mem_remaining sound keys
  rw [split, List.pairwise_append, List.pairwise_cons] at sorted
  rcases sorted with ⟨beforeSorted, ⟨afterLast, -⟩, precede⟩
  have lastBehind : view.isBehind request.forward request.start last :=
    ((remains last).mp (by simp)).2
  have behindLast (row : Row) :
      view.isBehind request.forward page.lastKey row =
        (directed request.forward last.1 row.1).isLT :=
    ReadView.isBehind_iff more placed
  have follows (row : Row) (member : row ∈ later) : Row.Precedes request.forward last row := by
    have behind := rest.behind row member
    rw [behindLast, Ordering.isLT_iff_eq_lt] at behind
    exact behind
  -- The rows of the page remain now; the others are listed by the rest of the run.
  have listed (row : Row) (member : row ∈ before ++ last :: later) :
      row ∈ before ++ last :: after ∨ row ∈ later := by
    rcases List.mem_append.mp member with first | second
    · exact .inl (List.mem_append_left _ first)
    · rcases List.mem_cons.mp second with rfl | laterMember
      · exact .inl (List.mem_append_right _ List.mem_cons_self)
      · exact .inr laterMember
  constructor
  case items =>
    rw [List.flatMap_cons, items, rest.items, ← List.map_append, List.append_assoc,
      List.singleton_append]
  case sorted =>
    refine List.pairwise_append.mpr
      ⟨beforeSorted, List.pairwise_cons.mpr ⟨follows, rest.sorted⟩, ?_⟩
    intro row member next nextMember
    have toLast := precede row member last List.mem_cons_self
    rcases List.mem_cons.mp nextMember with rfl | laterMember
    · exact toLast
    · exact Std.TransCmp.lt_trans toLast (follows next laterMember)
  case placed =>
    intro row member
    rcases listed row member with remaining | laterMember
    · exact ((remains row).mp remaining).1.2.2
    · exact rest.placed row laterMember
  case behind =>
    intro row member
    rcases listed row member with remaining | laterMember
    · exact ((remains row).mp remaining).2
    · exact ReadView.isBehind_trans lastBehind (follows row laterMember)
  case complete =>
    intro ends row selected placed behind present
    have here : row ∈ before ++ last :: after :=
      (remains row).mpr ⟨⟨present 0 (Nat.succ_pos _), selected, placed⟩, behind⟩
    rcases List.mem_append.mp here with first | second
    · exact List.mem_append_left _ first
    · rcases List.mem_cons.mp second with rfl | leftOut
      · exact List.mem_append_right _ List.mem_cons_self
      -- What the page left out is listed later, since it stayed for the later pages.
      · refine List.mem_append_right _ (List.mem_cons_of_mem _ ?_)
        refine rest.complete ?_ row selected placed ?_ ?_
        · cases pages with
          | nil =>
              rcases ends with ⟨_, ⟨⟩, empty⟩
              change page.lastKey.isEmpty = true at empty
              rw [more] at empty
              cases empty
          | cons next pages => exact ends
        · rw [behindLast, Ordering.isLT_iff_eq_lt]
          exact afterLast row leftOut
        · intro served less
          have later := present (served + 1) (Nat.succ_lt_succ less)
          rw [List.take_succ_cons, List.flatten_cons, afterAll, List.foldl_append] at later
          exact later

/-- Every run of an accepted read is answered and lists rows in this way. -/
theorem exists_lists
    {limit : Nat}
    (sound : storage.Sound)
    (seen : storage.view request = .ok view)
    (starts : view.Starts request.start)
    (limited : request.limit = some limit)
    (positive : 0 < limit)
    (batches : List (List Write)) :
    ∃ pages rows,
      storage.readPages request batches = .ok pages ∧
        Lists view storage request batches pages rows := by
  induction batches generalizing storage request with
  | nil =>
      rcases exists_cut sound seen starts limited positive with ⟨page, answered, cut⟩
      have run : storage.readPages request [] = .ok [page] := by
        rw [readPages, answered]
        rfl
      cases cut with
      | last short items ends => exact ⟨_, _, run, .last sound (view_keys seen).1 items⟩
      | @full before after last split length items more placed =>
          rw [← List.singleton_append, ← List.append_assoc] at split
          exact ⟨_, _, run, .stopped sound (view_keys seen).1 split items more⟩
  | cons writes batches ih =>
      rcases exists_cut sound seen starts limited positive with ⟨page, answered, cut⟩
      cases cut with
      | last short items ends =>
          exact ⟨_, _, readPages_of_last answered ends _, .last sound (view_keys seen).1 items⟩
      | @full before after last split length items more placed =>
          rcases sound.afterAll writes with ⟨writtenSound, schema, indexes⟩
          obtain ⟨pages, later, run, lists⟩ :=
            @ih (storage.afterAll writes) { request with start := page.lastKey } writtenSound
              ((view_congr schema indexes).trans seen) (.inr (by rw [placed]; rfl)) limited
          exact
            ⟨_, _, readPages_of_more answered more run,
              .cons sound (view_keys seen).1 split items more placed lists⟩

theorem Lists.nodup
    {batches : List (List Write)}
    {pages : List ReadResult}
    {rows : List Row}
    (lists : Lists view storage request batches pages rows) :
    (rows.map Prod.snd).Nodup :=
  ReadView.nodup_items_of_sorted lists.sorted lists.placed

/-- The items that a run lists of the table itself have different keys. -/
theorem Lists.apart
    {batches : List (List Write)}
    {pages : List ReadResult}
    {rows : List Row}
    (lists : Lists view storage request batches pages rows)
    (ofTable : view.index = none) :
    (rows.map Prod.snd).Pairwise (Apart view.table) := by
  rw [List.pairwise_map]
  apply lists.sorted.imp_of_mem
  intro left right leftMember rightMember precedes leftKey rightKey leftKeyed rightKeyed
  rw [← Bool.not_eq_true]
  intro same
  have leftPlaced := lists.placed left leftMember
  have rightPlaced := lists.placed right rightMember
  rw [ReadView.position?_of_table ofTable leftKeyed, Option.some.injEq] at leftPlaced
  rw [ReadView.position?_of_table ofTable rightKeyed, Option.some.injEq] at rightPlaced
  have equal := ReadView.compare_placeOf_of_isSame ofTable same
  rw [leftPlaced, rightPlaced] at equal
  rw [Row.Precedes] at precedes
  cases direction : request.forward with
  | true =>
      rw [direction, show directed true left.1 right.1 = .eq from equal] at precedes
      cases precedes
  | false =>
      rw [direction,
        show directed false left.1 right.1 = .eq from Std.OrientedCmp.eq_symm equal] at precedes
      cases precedes

/-- Paging stays sound when writes come between the pages.  The positions of the
items of a run go strictly up, or down for a backward read, so a table read lists
no key twice; and once the run has come to its end, every item that satisfies the
request and is there at each page has come up exactly once. -/
theorem pages_amid_writes
    (reachable : storage.Reachable)
    (accepted : storage.Accepts request)
    (fromBeginning : request.start.isEmpty)
    {limit : Nat}
    (limited : request.limit = some limit)
    (positive : 0 < limit)
    (batches : List (List Write)) :
    ∃ view pages, ∃ places : List (List KeyValue),
      storage.view request = .ok view ∧
        storage.readPages request batches = .ok pages ∧
        (pages.flatMap (·.items)).map view.position? = places.map some ∧
        places.Pairwise (fun left right =>
          compare left right = if request.forward then .lt else .gt) ∧
        (request.index = none →
          (pages.flatMap (·.items)).Pairwise (Apart storage.schema)) ∧
        ((∃ last ∈ pages.getLast?, last.lastKey.isEmpty) →
          ∀ item,
            view.selects item →
              (∀ served < pages.length,
                item ∈ (storage.afterAll (batches.take served).flatten).items) →
                (pages.flatMap (·.items)).count item = 1) := by
  rcases accepted with ⟨view, seen, starts⟩
  rcases exists_lists reachable.sound seen starts limited positive batches with
    ⟨pages, rows, run, lists⟩
  refine ⟨view, pages, rows.map Prod.fst, seen, run, ?_, ?_, ?_, ?_⟩
  · rw [lists.items, List.map_map, List.map_map]
    exact List.map_congr_left lists.placed
  · rw [List.pairwise_map]
    apply lists.sorted.imp
    intro left right precedes
    cases direction : request.forward with
    | true =>
        rw [Row.Precedes, direction] at precedes
        exact precedes
    | false =>
        rw [Row.Precedes, direction] at precedes
        exact Std.OrientedCmp.gt_of_lt precedes
  · intro ofTable
    rw [lists.items, (view_keys seen).1]
    exact lists.apart ((view_keys seen).2 ofTable)
  · intro ends item selected present
    have nonempty : 0 < pages.length := by
      rcases ends with ⟨last, isLast, -⟩
      exact List.length_pos_of_mem (List.mem_of_getLast? isLast)
    have stored : item ∈ storage.items := present 0 nonempty
    rcases reachable.sound.keyed stored with ⟨tableKey, filed⟩
    rcases ReadView.selects_iff.mp selected with ⟨key, keyed, -⟩
    have placed : view.position? item = some (view.placeOf key tableKey) :=
      ReadView.position?_eq_some_iff.mpr ⟨key, tableKey, keyed, (view_keys seen).1 ▸ filed, rfl⟩
    have member :=
      lists.complete ends (_, item) selected placed
        (ReadView.isBehind_of_isEmpty fromBeginning) present
    rw [lists.items, lists.nodup.count, if_pos (List.mem_map_of_mem member)]

/-- The letters one by one, while the last is taken away behind the first page. -/
theorem pages_amid_writes_letters :
    ∃ view pages, ∃ places : List (List KeyValue),
      letters.view lettersBackward = .ok view ∧
        letters.readPages lettersBackward
            [[@Write.delete Empty ⟨.string "c", .absent⟩ fun _ => .ok ()], [], []] =
          .ok pages ∧
        (pages.flatMap (·.items)).map view.position? = places.map some ∧
        places.Pairwise (fun left right =>
          compare left right = if lettersBackward.forward then .lt else .gt) ∧
        (lettersBackward.index = none →
          (pages.flatMap (·.items)).Pairwise (Apart letters.schema)) ∧
        ((∃ last ∈ pages.getLast?, last.lastKey.isEmpty) →
          ∀ item,
            view.selects item →
              (∀ served < pages.length,
                item ∈ (letters.afterAll
                  (List.take served
                    [[@Write.delete Empty ⟨.string "c", .absent⟩ fun _ => .ok ()],
                      [], []]).flatten).items) →
                (pages.flatMap (·.items)).count item = 1) :=
  pages_amid_writes letters_reachable ⟨_, rfl, .inl rfl⟩ rfl rfl (by decide)
    [[@Write.delete Empty ⟨.string "c", .absent⟩ fun _ => .ok ()], [], []]

end Storage

end ItemTable
