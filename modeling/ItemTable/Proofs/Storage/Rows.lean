import ItemTable.Proofs.Storage.View

/-!
# What a read lists

A read lists the rows that remain behind its start, in one direction, up to a
limit.  `ReadView.read_eq` reduces a read to `ReadView.remaining` and
`ReadView.page`: which rows remain depends on the table, and how a page is cut
depends only on the rows that remain.

The rows that remain are in strict order.  Those that remain behind the last
row of a page are therefore the ones that the page left out.
-/

namespace ItemTable

/-! ## Directions -/

/-- The order of positions in the direction of a read. -/
def directed (forward : Bool) (left right : List KeyValue) : Ordering :=
  if forward then compare left right else compare right left

instance (forward : Bool) : Std.TransCmp (directed forward) := by
  cases forward with
  | true => exact inferInstanceAs (Std.TransCmp fun left right => compare left right)
  | false => exact inferInstanceAs (Std.TransCmp fun left right => compare right left)

/-- A row that comes before another in the direction of a read. -/
def Row.Precedes (forward : Bool) (left right : Row) : Prop :=
  directed forward left.1 right.1 = .lt

/-- Among rows in strict order, those behind one of them are those that follow. -/
theorem filter_behind
    {forward : Bool}
    {before after : List Row}
    {last : Row}
    (sorted : (before ++ last :: after).Pairwise (Row.Precedes forward)) :
    (before ++ last :: after).filter (fun row => (directed forward last.1 row.1).isLT) =
      after := by
  rw [List.pairwise_append, List.pairwise_cons] at sorted
  rcases sorted with ⟨-, ⟨follow, -⟩, precede⟩
  have noneBefore :
      before.filter (fun row => (directed forward last.1 row.1).isLT) = [] := by
    rw [List.filter_eq_nil_iff]
    intro row member
    have less : directed forward row.1 last.1 = .lt :=
      precede row member last List.mem_cons_self
    rw [Std.OrientedCmp.gt_of_lt less]
    decide
  have notLast : (directed forward last.1 last.1).isLT = false := by
    have self : directed forward last.1 last.1 = .eq := Std.ReflCmp.compare_self
    rw [self]
    rfl
  have allAfter :
      after.filter (fun row => (directed forward last.1 row.1).isLT) = after := by
    rw [List.filter_eq_self]
    intro row member
    rw [show directed forward last.1 row.1 = .lt from follow row member]
    rfl
  rw [List.filter_append, List.filter_cons, noneBefore, notLast, allAfter]
  rfl

/-- Sorting what a comparison tells apart brings it in strict order. -/
theorem mergeSort_strict
    {α κ : Type}
    {cmp : κ → κ → Ordering}
    [Std.TransCmp cmp]
    {key : α → κ}
    {entries : List α}
    (different : entries.Pairwise fun left right => cmp (key left) (key right) ≠ .eq) :
    (entries.mergeSort fun left right => (cmp (key left) (key right)).isLE).Pairwise
      fun left right => cmp (key left) (key right) = .lt := by
  have apart :
      (entries.mergeSort fun left right => (cmp (key left) (key right)).isLE).Pairwise
        fun left right => cmp (key left) (key right) ≠ .eq := by
    refine ((List.mergeSort_perm _ _).pairwise_iff ?_).mpr different
    intro left right different equal
    exact different (Std.OrientedCmp.eq_symm equal)
  have sorted :
      (entries.mergeSort fun left right => (cmp (key left) (key right)).isLE).Pairwise
        fun left right => (cmp (key left) (key right)).isLE := by
    refine List.pairwise_mergeSort ?_ ?_ _
    · intro first second third
      exact Std.TransCmp.isLE_trans
    · intro left right
      have swap : cmp (key right) (key left) = (cmp (key left) (key right)).swap :=
        Std.OrientedCmp.eq_swap
      rw [swap]
      cases cmp (key left) (key right) <;> rfl
  apply (apart.and sorted).imp
  rintro left right ⟨notEqual, lessOrEqual⟩
  exact (Ordering.isLE_iff_eq_lt_or_eq_eq.mp lessOrEqual).resolve_right notEqual

namespace ReadView

variable {view : ReadView} {storage : Storage} {item : Item}

/-! ## Rows -/

theorem mem_items_of_mem_candidates
    {ofIndex : Bool}
    {partition : Option KeyValue}
    (candidate : item ∈ storage.candidates ofIndex partition) :
    item ∈ storage.items := by
  unfold Storage.candidates at candidate
  split at candidate
  · exact Storage.mem_items_of_mem_partition candidate
  · exact candidate

/-- A selected item is among those at which a read looks. -/
theorem mem_candidates
    (sound : storage.Sound)
    (keys : storage.schema = view.table)
    (stored : item ∈ storage.items)
    (selected : view.selects item) :
    item ∈ storage.candidates view.index.isSome view.partition := by
  rcases view with ⟨table, index, partition, sort⟩
  cases partition with
  | none => exact stored
  | some value =>
      cases index with
      | some keys => exact stored
      | none =>
          rcases selects_iff.mp selected with ⟨key, keyed, same, -⟩
          change table.primaryKey item = .ok key at keyed
          rw [← show storage.schema = table from keys] at keyed
          exact sound.mem_partition stored keyed (Std.OrientedCmp.eq_symm (same value rfl))

/-- The rows are the selected items of the table with their positions. -/
theorem mem_rows
    {row : Row}
    (sound : storage.Sound)
    (keys : storage.schema = view.table) :
    row ∈ view.rows storage ↔
      row.2 ∈ storage.items ∧ view.selects row.2 ∧ view.position? row.2 = some row.1 := by
  have placed (item : Item) :
      storage.position? view.schema view.index.isSome view.partition.isSome item =
        view.position? item := by
    simp only [position?, Storage.position?, Storage.create, keys]
  rcases row with ⟨place, item⟩
  simp only [rows, Storage.selected, List.mem_mergeSort, List.mem_filterMap, List.mem_filter,
    placed, Option.map_eq_some_iff, Prod.mk.injEq]
  constructor
  · rintro ⟨_, ⟨candidate, selected⟩, _, found, rfl, rfl⟩
    exact ⟨mem_items_of_mem_candidates candidate, selected, found⟩
  · rintro ⟨stored, selected, found⟩
    exact ⟨item, ⟨mem_candidates sound keys stored selected, selected⟩, place, found, rfl, rfl⟩

theorem candidates_apart
    (sound : storage.Sound)
    (ofIndex : Bool)
    (partition : Option KeyValue) :
    (storage.candidates ofIndex partition).Pairwise (Storage.Apart storage.schema) := by
  unfold Storage.candidates
  split
  · rename_i value
    cases found : storage.partition? value with
    | none => exact .nil
    | some partition =>
        rcases Option.map_eq_some_iff.mp found with ⟨entry, first, rfl⟩
        exact sound.apart_of_partition (List.mem_of_find?_eq_some first)
  · exact sound.items_apart

theorem rows_increasing
    (sound : storage.Sound)
    (keys : storage.schema = view.table) :
    (view.rows storage).Pairwise (Row.Precedes true) := by
  apply @mergeSort_strict Row _ compare _ Prod.fst
  rw [List.pairwise_filterMap]
  apply ((candidates_apart sound _ _).sublist List.filter_sublist).imp_of_mem
  intro left right leftMember rightMember apart leftRow leftPlaced rightRow rightPlaced
  rcases Option.map_eq_some_iff.mp leftPlaced with ⟨leftPlace, leftFound, rfl⟩
  rcases Option.map_eq_some_iff.mp rightPlaced with ⟨rightPlace, rightFound, rfl⟩
  rw [keys] at apart
  refine
    compare_position_ne (List.mem_filter.mp leftMember).2 (List.mem_filter.mp rightMember).2
      ?_ ?_ apart
  · rw [← leftFound]
    simp only [position?, Storage.position?, Storage.create, keys]
  · rw [← rightFound]
    simp only [position?, Storage.position?, Storage.create, keys]

/-! ## Rows that remain -/

/-- A key from which a read may go on, or none. -/
def Starts (view : ReadView) (start : Item) : Prop :=
  start.isEmpty ∨ (view.position? start).isSome

/-- Whether a row lies behind the start of a read. -/
def isBehind (view : ReadView) (forward : Bool) (start : Item) (row : Row) : Bool :=
  start.isEmpty ||
    (view.position? start).any fun place => (directed forward place row.1).isLT

/-- The rows behind the start of a read, in its direction. -/
def remaining
    (view : ReadView)
    (storage : Storage)
    (forward : Bool)
    (start : Item) :
    List Row :=
  (if forward then view.rows storage else (view.rows storage).reverse).filter
    (view.isBehind forward start)

theorem mem_remaining
    {forward : Bool}
    {start : Item}
    {row : Row}
    (sound : storage.Sound)
    (keys : storage.schema = view.table) :
    row ∈ view.remaining storage forward start ↔
      (row.2 ∈ storage.items ∧ view.selects row.2 ∧ view.position? row.2 = some row.1) ∧
        view.isBehind forward start row := by
  rw [remaining, List.mem_filter, ← mem_rows sound keys]
  cases forward with
  | true => rfl
  | false => exact and_congr_left' List.mem_reverse

/-- What remains is in strict order. -/
theorem remaining_sorted
    (sound : storage.Sound)
    (keys : storage.schema = view.table)
    (forward : Bool)
    (start : Item) :
    (view.remaining storage forward start).Pairwise (Row.Precedes forward) := by
  have increasing := rows_increasing sound keys
  apply List.Pairwise.sublist List.filter_sublist
  cases forward with
  | true => exact increasing
  | false => exact List.pairwise_reverse.mpr increasing

theorem isBehind_of_isEmpty
    {forward : Bool}
    {start : Item}
    {row : Row}
    (empty : start.isEmpty) :
    view.isBehind forward start row := by
  rw [isBehind, empty, Bool.true_or]

theorem isBehind_iff
    {forward : Bool}
    {start : Item}
    {place : List KeyValue}
    {row : Row}
    (present : start.isEmpty = false)
    (placed : view.position? start = some place) :
    view.isBehind forward start row = (directed forward place row.1).isLT := by
  rw [isBehind, present, placed, Bool.false_or, Option.any_some]

theorem isBehind_trans
    {forward : Bool}
    {start : Item}
    {first second : Row}
    (behind : view.isBehind forward start first)
    (precedes : Row.Precedes forward first second) :
    view.isBehind forward start second := by
  rw [isBehind] at behind ⊢
  rw [Bool.or_eq_true, Option.any_eq_true] at behind ⊢
  apply behind.imp_right
  rintro ⟨place, placed, less⟩
  refine ⟨place, placed, ?_⟩
  rw [Ordering.isLT_iff_eq_lt] at less ⊢
  exact Std.TransCmp.lt_trans less precedes

/-- Rows in strict order that stand where their items belong hold different items. -/
theorem nodup_items_of_sorted
    {forward : Bool}
    {rows : List Row}
    (sorted : rows.Pairwise (Row.Precedes forward))
    (placed : ∀ row ∈ rows, view.position? row.2 = some row.1) :
    (rows.map Prod.snd).Nodup := by
  rw [List.Nodup, List.pairwise_map]
  apply sorted.imp_of_mem
  intro left right leftMember rightMember precedes same
  have leftPlaced := placed left leftMember
  rw [same, placed right rightMember, Option.some.injEq] at leftPlaced
  have self : directed forward left.1 left.1 = .eq := Std.ReflCmp.compare_self
  rw [Row.Precedes, leftPlaced, self] at precedes
  cases precedes

/-- From the beginning, the selected items of the table remain. -/
theorem mem_remaining_items
    {forward : Bool}
    {start : Item}
    (sound : storage.Sound)
    (keys : storage.schema = view.table)
    (fromBeginning : start.isEmpty) :
    item ∈ (view.remaining storage forward start).map Prod.snd ↔
      item ∈ storage.items ∧ view.selects item := by
  constructor
  · intro listed
    rcases List.mem_map.mp listed with ⟨row, member, rfl⟩
    rcases ((mem_remaining sound keys).mp member).1 with ⟨stored, selected, -⟩
    exact ⟨stored, selected⟩
  · rintro ⟨stored, selected⟩
    rcases sound.keyed stored with ⟨tableKey, filed⟩
    rcases selects_iff.mp selected with ⟨key, keyed, -⟩
    have placed : view.position? item = some (view.placeOf key tableKey) :=
      position?_eq_some_iff.mpr ⟨key, tableKey, keyed, keys ▸ filed, rfl⟩
    apply List.mem_map.mpr
    refine ⟨(view.placeOf key tableKey, item), (mem_remaining sound keys).mpr ⟨?_, ?_⟩, rfl⟩
    · exact ⟨stored, selected, placed⟩
    · exact isBehind_of_isEmpty fromBeginning

/-! ## Pages -/

/-- The page that is cut from the rows that remain. -/
def page (view : ReadView) (limit : Option Nat) (rows : List Row) : ReadResult :=
  match limit with
  | none => { items := rows.map Prod.snd, lastKey := ∅ }
  | some limit =>
      let items := (rows.map Prod.snd).take limit
      { items
        lastKey :=
          if limit ≤ rows.length then
            (items.getLast?.map view.resumptionKey).getD ∅
          else
            ∅ }

theorem resumed_eq
    {start : Item}
    (starts : view.Starts start)
    (forward : Bool)
    (rows : List Row) :
    Storage.resumed view.position? forward start rows =
      .ok (rows.filter (view.isBehind forward start)) := by
  rw [Storage.resumed]
  cases empty : start.isEmpty with
  | true =>
      have all : rows.filter (view.isBehind forward start) = rows :=
        List.filter_eq_self.mpr fun row _ => isBehind_of_isEmpty empty
      rw [all]
      rfl
  | false =>
      obtain ⟨place, placed⟩ :=
        Option.isSome_iff_exists.mp (starts.resolve_left (by simp [empty]))
      rw [placed]
      refine congrArg Except.ok (List.filter_congr ?_)
      rintro ⟨other, item⟩ -
      rw [isBehind_iff empty placed]
      have swap : compare other place = (compare place other).swap :=
        Std.OrientedOrd.eq_swap
      cases forward with
      | true =>
          change (compare other place == .gt) = (compare place other).isLT
          rw [swap]
          cases compare place other <;> rfl
      | false =>
          change (compare other place == .lt) = (compare other place).isLT
          cases compare other place <;> rfl

end ReadView

namespace Storage

variable {storage : Storage} {request : ReadRequest}

/-- A read is decided by its view: the rows that remain, cut to a page. -/
theorem read_eq_view (storage : Storage) (request : ReadRequest) :
    storage.read request = do
      let view ← storage.view request
      let rows ← resumed view.position? request.forward request.start
        (if request.forward then view.rows storage else (view.rows storage).reverse)
      return view.page request.limit rows := by
  rw [read, view]
  cases found : storage.schemaFor request.index with
  | error error => rfl
  | ok schema =>
      cases typed : request.partition.mapM schema.partition.keyValue with
      | error error => simp only [bind, Except.bind, typed]
      | ok partition =>
          let view : ReadView :=
            { table := storage.schema
              index := if request.index.isSome then some schema else none
              partition
              sort := request.sort }
          have sameSchema : view.schema = schema := by
            cases index : request.index with
            | none =>
                rw [index] at found
                cases found
                simp [view, ReadView.schema, index]
            | some name => simp [view, ReadView.schema, index]
          have sameOfIndex : view.index.isSome = request.index.isSome := by
            cases index : request.index <;> simp [view, index]
          have samePosition :
              storage.position? schema request.index.isSome partition.isSome = view.position? := by
            rw [← sameSchema, ← sameOfIndex]
            rfl
          have sameRows :
              storage.selected schema request.index.isSome partition request.sort =
                view.rows storage := by
            rw [← sameSchema, ← sameOfIndex]
            rfl
          simp only [bind, Except.bind, pure, Except.pure, typed, samePosition, sameRows]
          cases resumed view.position? request.forward request.start
              (if request.forward then view.rows storage else (view.rows storage).reverse) with
          | error error => rfl
          | ok rows =>
              cases request.limit with
              | none => rfl
              | some limit =>
                  simp only [ReadView.page, List.length_map]
                  split <;> rfl

/-- What a table can answer: the index exists, the partition value has the kind of
the partition key, and the start is a key of the view or missing. -/
def Accepts (storage : Storage) (request : ReadRequest) : Prop :=
  ∃ view, storage.view request = .ok view ∧ view.Starts request.start

/-- An accepted read lists a page of the rows that remain. -/
theorem read_eq
    {view : ReadView}
    (seen : storage.view request = .ok view)
    (starts : view.Starts request.start) :
    storage.read request =
      .ok (view.page request.limit
        (view.remaining storage request.forward request.start)) := by
  rw [read_eq_view, seen]
  change (resumed _ _ _ _ >>= _) = _
  rw [view.resumed_eq starts]
  rfl

/-- A table answers exactly the reads that it accepts. -/
theorem exists_read_iff_accepts :
    (∃ result, storage.read request = .ok result) ↔ storage.Accepts request := by
  constructor
  · rintro ⟨result, answered⟩
    rw [read_eq_view] at answered
    cases seen : storage.view request with
    | error error =>
        rw [seen] at answered
        cases answered
    | ok view =>
        refine ⟨view, seen, ?_⟩
        rw [seen] at answered
        change (resumed _ _ _ _ >>= _) = _ at answered
        rw [resumed] at answered
        rw [ReadView.Starts]
        cases empty : request.start.isEmpty with
        | true => exact .inl rfl
        | false =>
            refine .inr ?_
            cases placed : view.position? request.start with
            | some place => rfl
            | none =>
                rw [empty, placed] at answered
                cases answered
  · rintro ⟨view, seen, starts⟩
    exact ⟨_, read_eq seen starts⟩

end Storage

end ItemTable
