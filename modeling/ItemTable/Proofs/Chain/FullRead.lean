import ItemTable.Chain.Terminal
import ItemTable.Proofs.Chain.Acceptance
import ItemTable.Proofs.Chain.BruteForce
import ItemTable.Proofs.Memory.Draining
import ItemTable.Proofs.Memory.Reachability

/-!
# Full reads

`Table.runAll` reads all pages of the read that a chain is.  On tables in memory it
lists what brute force finds, whatever the limit of its pages, as long as the filter
can be evaluated on all that is found.  Otherwise it fails on the first item on which
the filter cannot be evaluated.
-/

namespace ItemTable

open PlaceholderTable (projectedPaths)

/-! ## Chains that read a table -/

namespace ChainState

/-- What the expressions of a full read say. -/
def terms (chain : ChainState) : ReadTerms where
  keyCondition := chain.keyCondition
  filter := chain.filter
  paths := projectedPaths chain.projection

/-- Whether items come in increasing order of their keys; only a query can go back. -/
def forward (chain : ChainState) : Bool :=
  chain.keyCondition.isNone || chain.ascending

/-- What a chain shows of an item: what the paths of the projection lead to, or the
whole item if there are none. -/
def shows (chain : ChainState) (item : Item) : Item :=
  match projectedPaths chain.projection with
  | [] => item
  | paths => item.project paths

/-- A chain that reads a table from its beginning. -/
structure Reads (chain : ChainState) (storage : Storage) : Prop where
  ofTable : chain.index = none
  fromStart : chain.cursor = .exhausted
  unconditional : chain.condition = none
  filter : ∀ filter ∈ chain.filter, filter.isWellFormed ∧ filter.isBounded
  limit : ∀ limit ∈ chain.limit, 0 < limit ∧ limit ≤ RequestFault.largestLimit
  /-- The key condition selects a part of the table. -/
  selects : ∀ condition ∈ chain.keyCondition,
    ∃ selection, storage.schema.selection condition = .ok selection
  /-- The numbers of the key condition have a place among the keys. -/
  literals : ∀ condition ∈ chain.keyCondition, condition.IsComparable
  /-- The numbers among the keys have one as well, if there is a key condition. -/
  keys : chain.keyCondition.isSome →
    ∀ item ∈ storage.items, ∀ key,
      storage.schema.primaryKey item = .ok key → key.isComparable

variable {chain : ChainState} {storage : Storage}

/-! ## The part of the table -/

/-- The read of a chain sees the items of which its key condition holds. -/
theorem Reads.exists_view
    (reads : chain.Reads storage)
    (sound : storage.Sound) :
    ∃ selection view,
      chain.keyCondition.mapM storage.schema.selection = .ok selection ∧
        (∀ request : ReadRequest,
          request.index = none →
          request.partition = selection.map KeySelection.partition →
          request.sort = selection >>= KeySelection.sort →
          storage.view request = .ok view) ∧
        view.index = none ∧
        (view.partition = none → chain.forward = true) ∧
        ∀ item ∈ storage.items,
          (chain.keyCondition.all fun condition => condition.isTrue item) =
            view.selects item := by
  cases isKey : chain.keyCondition with
  | none =>
      refine ⟨none, ⟨storage.schema, none, none, none⟩, rfl, ?_, rfl, ?_, ?_⟩
      · rintro ⟨index, partition, sort, forward, limit, start⟩ ofTable unselective unsorted
        cases ofTable
        cases unselective
        cases unsorted
        rfl
      · intro _
        rw [forward, isKey]
        rfl
      · intro item stored
        rcases sound.keyed stored with ⟨key, keyed⟩
        have selected : (ReadView.mk storage.schema none none none).selects item :=
          ReadView.selects_iff.mpr ⟨key, keyed, by simp, by simp⟩
        rw [selected]
        rfl
  | some condition =>
      rcases reads.selects condition isKey with ⟨selection, selected⟩
      rcases KeySchema.selection_eq_ok selected with ⟨-, literal, -, -, ofKind, -⟩
      have typed := KeyAttribute.keyValue_eq_ok.mpr ofKind
      refine ⟨some selection, ⟨storage.schema, none, some literal, selection.sort⟩, ?_, ?_, rfl,
        ?_, ?_⟩
      · change (some <$> storage.schema.selection condition) = _
        rw [selected]
        rfl
      · rintro ⟨index, partition, sort, forward, limit, start⟩ ofTable isPartition isSort
        cases ofTable
        cases isPartition
        cases isSort
        change (some <$> storage.schema.partition.keyValue selection.partition >>= _) = _
        rw [typed]
        rfl
      · intro absent
        cases absent
      · intro item stored
        rcases sound.keyed stored with ⟨key, keyed⟩
        have comparable := reads.keys (by rw [isKey]; rfl) item stored key keyed
        rw [PrimaryKey.isComparable, Bool.and_eq_true] at comparable
        have holds := KeySchema.selection_holds selected typed keyed comparable.1
          (fun _ => comparable.2) (reads.literals condition isKey)
        rw [Option.all_some, Condition.isTrue, holds]
        exact (Storage.isSelected_of_primaryKey keyed literal selection.sort).symm

/-! ## The document -/

/-- A chain that reads a table has a place for all that it says. -/
theorem Reads.fits
    (reads : chain.Reads storage) :
    chain.Fits (Table.readKind chain).operation where
  keyCondition := by
    rw [Table.readKind]
    cases chain.keyCondition with
    | none => exact ⟨nofun, nofun⟩
    | some _ => exact ⟨fun _ => rfl, fun _ => rfl⟩
  filter _ := by
    rw [Table.readKind]
    cases chain.keyCondition <;> rfl
  condition isSome := by
    rw [reads.unconditional] at isSome
    cases isSome
  limit _ := reads.limit

/-- The document of a full read poses what the chain says. -/
theorem Reads.exists_document
    (reads : chain.Reads storage)
    (name : String) :
    ∃ document,
      chain.document name (Table.readKind chain).operation none = .ok document ∧
        document.Poses chain.terms ∧
        document.tableName = name ∧
        document.index = none ∧
        document.limit = chain.limit ∧
        document.select = none ∧
        (chain.keyCondition.isNone || document.forward.getD true) = chain.forward := by
  have projection :
      chain.projectionField none = none ∧ chain.terms.paths = [] ∨
        ∃ entries,
          chain.projectionField none = some (.raw entries) ∧
            chain.terms.paths = projectedPaths entries := by
    rw [projectionField, terms]
    cases chain.projection with
    | nil => exact .inl ⟨rfl, rfl⟩
    | cons entry entries => exact .inr ⟨_, rfl, rfl⟩
  rw [ChainState.document, check_eq_ok_iff.mpr reads.fits, ok_bind, Table.readKind]
  cases isKey : chain.keyCondition with
  | none =>
      refine ⟨_, rfl, ⟨?_, rfl, rfl, projection, rfl, rfl⟩, rfl, reads.ofTable, rfl, rfl, ?_⟩
      · rw [terms, isKey]
        rfl
      · rw [forward, isKey]
        rfl
  | some condition =>
      refine ⟨_, rfl, ⟨?_, rfl, rfl, projection, rfl, rfl⟩, rfl, reads.ofTable, rfl, rfl, ?_⟩
      · rw [terms, isKey]
        rfl
      · rw [forward, isKey]
        rfl

/-! ## The read -/

/-- The expressions of a chain that reads a table can be rendered and read back. -/
theorem Reads.valid
    (reads : chain.Reads storage) :
    chain.terms.Valid := by
  constructor
  · intro condition member
    rcases List.mem_append.mp member with isKey | isFilter
    · rcases reads.selects condition (Option.mem_toList.mp isKey) with ⟨selection, selected⟩
      exact (KeySchema.form_of_selection selected).2
    · exact reads.filter condition (Option.mem_toList.mp isFilter)
  · intro path member
    rcases List.mem_map.mp member with ⟨name, -, rfl⟩
    exact ⟨Path.isRooted_parse name, Path.isBounded_parse name⟩

/-- A full read lists what brute force finds, as the filter and the projection of the
chain leave it. -/
theorem Reads.runAll_eq
    {memory : Memory}
    {table : Table Memory}
    (reads : chain.Reads storage)
    (sound : storage.Sound)
    (inMemory : table.service = Memory.service)
    (isTable : memory.table table.name = .ok storage) :
    (table.runAll chain memory).1 =
      chain.terms.outcome (storage.found chain.keyCondition chain.forward) := by
  rcases reads.exists_view sound with ⟨selection, view, selected, seen, ofTable, whole, agrees⟩
  rcases reads.exists_document table.name with
    ⟨document, made, poses, named, unindexed, limit, unselected, direction⟩
  let paginator : Paginator :=
    { kind := Table.readKind chain, document, cursor := chain.cursor }
  let request := Memory.readRequest selection paginator.asking
  have underway : Paginator.Underway memory storage chain.terms selection paginator := by
    have asked : paginator.asking.Poses chain.terms := by
      rcases poses with ⟨keyCondition, filter, condition, projection, names, values⟩
      exact ⟨keyCondition, filter, condition, projection, names, values⟩
    constructor
    · rfl
    · refine ⟨?_, reads.valid, selected, unindexed, ?_, unselected⟩
      · change memory.table document.tableName = _
        rw [named]
        exact isTable
      · change ∀ limit ∈ document.limit, _
        rw [limit]
        exact reads.limit
    · apply asked.compile
      intro condition isKey
      rcases reads.selects condition isKey with ⟨part, isPart⟩
      exact (KeySchema.form_of_selection isPart).1
    · exact poses.condition
  have start : request.start = ∅ := by
    change chain.cursor.start = ∅
    rw [reads.fromStart]
    rfl
  have forward : request.forward = chain.forward := by
    rw [← direction]
    change (selection.isNone || document.forward.getD true) = _
    rw [isNone_of_mapM selected]
  have positive : ∀ limit ∈ request.limit, 0 < limit := by
    change ∀ limit ∈ document.limit, _
    rw [limit]
    exact fun limit asked => (reads.limit limit asked).1
  have viewed : storage.view request = .ok view := seen request unindexed rfl rfl
  rcases Storage.exists_pages sound viewed (.inl (by rw [start]; rfl)) positive with
    ⟨pages, run, ends, concat⟩
  have enough :
      (view.remaining storage request.forward request.start).length ≤ memory.totalCount :=
    Nat.le_trans (Storage.remaining_length_le storage view _ _)
      (Memory.length_items_le_totalCount isTable)
  have drained := underway.drain_readPages (run memory.totalCount enough) ends
  rw [concat, start, forward,
    ← sound.found_eq (Storage.view_keys viewed).1 ofTable whole agrees] at drained
  have paginated : table.paginator chain (Table.readKind chain) none = .ok paginator := by
    rw [Table.paginator]
    rw [made]
    rfl
  rw [Table.runAll, Table.readAll]
  simp only [paginated, Paginator.collectAll, inMemory]
  exact drained

end ChainState

/-! ## The filter -/

theorem matching_of_evaluates
    {condition : Condition}
    {items : List Item}
    (evaluates : ∀ item ∈ items, ∃ value, condition.holds item = .ok value) :
    Memory.matching condition items = .ok (items.filter condition.isTrue) := by
  induction items with
  | nil => rfl
  | cons item items ih =>
      rcases evaluates item List.mem_cons_self with ⟨value, holds⟩
      have others := ih fun item member => evaluates item (List.mem_cons_of_mem _ member)
      have isValue : condition.isTrue item = value := by
        rw [Condition.isTrue, holds]
      rw [Memory.matching, holds, others, List.filter_cons, isValue]
      rfl

theorem keepItems_of_evaluates
    {filter : Option Condition}
    {items : List Item}
    (evaluates : ∀ condition ∈ filter, ∀ item ∈ items,
      ∃ value, condition.holds item = .ok value) :
    Memory.keepItems filter items =
      .ok (items.filter fun item => filter.all fun condition => condition.isTrue item) := by
  cases filter with
  | none => exact congrArg Except.ok (List.filter_eq_self.mpr fun _ _ => rfl).symm
  | some condition => exact matching_of_evaluates (evaluates condition rfl)

theorem keepItems_of_error
    {condition : Condition}
    {before after : List Item}
    {item : Item}
    {error : ExpressionError}
    (evaluates : ∀ earlier ∈ before, ∃ value, condition.holds earlier = .ok value)
    (failed : condition.holds item = .error error) :
    Memory.keepItems (some condition) (before ++ item :: after) =
      .error (Memory.invalid "FilterExpression" error) := by
  have first : Memory.keepItems (some condition) before = .ok (before.filter condition.isTrue) :=
    matching_of_evaluates evaluates
  rw [keepItems_append, first, ok_bind]
  change (Memory.matching condition (item :: after) >>= _) = _
  rw [Memory.matching, failed]
  rfl

theorem ChainState.present_shown (chain : ChainState) :
    Memory.present chain.terms.shown = chain.shows := by
  funext item
  rw [ReadTerms.shown, ChainState.shows, ChainState.terms]
  cases projectedPaths chain.projection with
  | nil => rfl
  | cons path paths => rfl

/-! ## Full reads -/

/-- A full read of a chain equals brute force, whatever the limit of its pages: it lists
the items of which the key condition and the filter hold, in the order of their keys
and as the projection shows them.  If the filter cannot be evaluated on an item that
the key condition selects, the read fails as the filter does on the first such item. -/
theorem run_all_eq_brute_force
    {memory : Memory}
    {table : Table Memory}
    {storage : Storage}
    {chain : ChainState}
    (reachable : memory.Reachable)
    (inMemory : table.service = Memory.service)
    (isTable : memory.tables.find? table.name = some storage)
    (reads : chain.Reads storage) :
    let items := storage.found chain.keyCondition chain.forward
    let result := (table.runAll chain memory).1
    result ≠ .unfinished ∧
      ((∀ filter ∈ chain.filter, ∀ item ∈ items, ∃ value, filter.holds item = .ok value) →
        result = .finished
          ((items.filter fun item => chain.filter.all fun filter => filter.isTrue item).map
            chain.shows)) ∧
      ∀ filter ∈ chain.filter, ∀ before item after error,
        items = before ++ item :: after →
        (∀ earlier ∈ before, ∃ value, filter.holds earlier = .ok value) →
        filter.holds item = .error error →
        result = .failed (.ofService (Memory.invalid "FilterExpression" error)) := by
  intro items result
  have found := Memory.table_eq_ok_iff.mpr isTable
  have outcome : result = chain.terms.outcome items :=
    reads.runAll_eq (reachable.sound found) inMemory found
  refine ⟨?_, ?_, ?_⟩
  · rw [outcome, ReadTerms.outcome]
    cases Memory.keepItems chain.terms.filter items <;> rintro ⟨⟩
  · intro evaluates
    have kept : Memory.keepItems chain.terms.filter items = _ := keepItems_of_evaluates evaluates
    rw [outcome, ReadTerms.outcome, kept, chain.present_shown]
    rfl
  · intro filter isFilter before item after error split evaluates failed
    have refused :
        Memory.keepItems chain.terms.filter items =
          .error (Memory.invalid "FilterExpression" error) := by
      change Memory.keepItems chain.filter items = _
      rw [isFilter, split]
      exact keepItems_of_error evaluates failed
    rw [outcome, ReadTerms.outcome, refused]

/-! ## A notebook -/

/-- An attribute of an item. -/
def attributeOf (name : String) : Operand :=
  .path ⟨[.attribute name]⟩

/-- The keys of notes: an author and a page. -/
def noteKeys : KeySchema where
  partition := ⟨"author", .string⟩
  sort := some ⟨"page", .number⟩

/-- A note on a page. -/
def noted (page text : String) : Item :=
  .ofList [("author", .string "a"), ("page", .number page), ("text", .string text)]

/-- A table of notes. -/
def notebook (notes : List Item) : Memory :=
  notes.foldl (fun memory note => (memory.put ⟨"notes", note, none, ∅, ∅, none⟩).2)
    (Memory.start.createTable "notes" noteKeys).2

/-- The table of a notebook. -/
def pagesOf (notes : List Item) : Storage :=
  ((notebook notes).tables.find? "notes").getD (.create noteKeys)

theorem notebook_reachable (notes : List Item) : (notebook notes).Reachable := by
  have created : (Memory.start.createTable "notes" noteKeys).2.Reachable :=
    .createTable .start "notes" noteKeys
  rw [notebook]
  generalize (Memory.start.createTable "notes" noteKeys).2 = memory at created
  induction notes generalizing memory with
  | nil => exact created
  | cons note notes ih => exact ih _ (.put created _)

/-- The pages behind the first one that hold the text `y`, one at a time and from the
last to the first. -/
def lateNotes : ChainState :=
  { ChainState.start with
    keyCondition := some (.and
      (.compare (attributeOf "author") .equal (.value (.string "a")))
      (.compare (attributeOf "page") .greater (.value (.number "1"))))
    filter := some (.compare (attributeOf "text") .equal (.value (.string "y")))
    projection := ["page"]
    ascending := false
    limit := some 1 }

theorem reads_lateNotes :
    lateNotes.Reads (pagesOf [noted "1" "y", noted "2" "y", noted "10" "y"]) where
  ofTable := rfl
  fromStart := rfl
  unconditional := rfl
  filter := by
    rintro _ ⟨⟩
    exact ⟨rfl, rfl⟩
  limit := by
    rintro _ ⟨⟩
    decide
  selects := by
    rintro _ ⟨⟩
    exact ⟨_, rfl⟩
  literals := by
    rintro _ ⟨⟩ text literal
    change AttributeValue.number text ∈ [.string "a", .number "1"] at literal
    rcases literal with _ | ⟨_, _ | ⟨_, ⟨⟩⟩⟩
    decide +kernel
  keys := by
    intro _ item stored key keyed
    change item ∈ [noted "1" "y", noted "2" "y", noted "10" "y"] at stored
    rcases stored with _ | ⟨_, _ | ⟨_, _ | ⟨_, ⟨⟩⟩⟩⟩ <;> cases keyed <;> decide +kernel

/-- Pages are ordered by their numbers, not by their texts. -/
theorem found_lateNotes :
    (pagesOf [noted "1" "y", noted "2" "y", noted "10" "y"]).found lateNotes.keyCondition
        lateNotes.forward =
      [noted "10" "y", noted "2" "y"] := by
  change List.mergeSort [noted "2" "y", noted "10" "y"] _ = _
  rw [List.mergeSort]
  change List.merge (List.mergeSort [noted "2" "y"] _) (List.mergeSort [noted "10" "y"] _) _ = _
  rw [List.mergeSort_singleton, List.mergeSort_singleton]
  simp only [List.merge]
  rw [if_neg (by decide +kernel)]

/-- The late pages of a notebook, read one by one from the last. -/
theorem run_all_eq_brute_force_notes :
    ((Table.ofName Memory.service "notes").runAll lateNotes
        (notebook [noted "1" "y", noted "2" "y", noted "10" "y"])).1 =
      .finished
        [(∅ : Item).insert "page" (.number "10"), (∅ : Item).insert "page" (.number "2")] := by
  have isTable :
      (notebook [noted "1" "y", noted "2" "y", noted "10" "y"]).tables.find?
          (Table.ofName Memory.service "notes").name =
        some (pagesOf [noted "1" "y", noted "2" "y", noted "10" "y"]) :=
    rfl
  rcases run_all_eq_brute_force (notebook_reachable _) rfl isTable reads_lateNotes with
    ⟨-, finished, -⟩
  rw [found_lateNotes] at finished
  apply finished
  rintro _ ⟨⟩ item found
  rcases found with _ | ⟨_, _ | ⟨_, ⟨⟩⟩⟩
  · exact ⟨true, rfl⟩
  · exact ⟨true, rfl⟩

/-- A chain whose filter compares numbers with a text that denotes none. -/
def unreadableNotes : ChainState :=
  { ChainState.start with
    filter := some (.compare (attributeOf "page") .equal (.value (.number "abc"))) }

theorem reads_unreadableNotes : unreadableNotes.Reads (pagesOf [noted "1" "x"]) where
  ofTable := rfl
  fromStart := rfl
  unconditional := rfl
  filter := by
    rintro _ ⟨⟩
    exact ⟨rfl, rfl⟩
  limit := nofun
  selects := nofun
  literals := nofun
  keys := nofun

/-- Where the filter cannot be evaluated, a full read does not list what brute force
finds: it fails. -/
theorem run_all_ne_brute_force :
    let table := Table.ofName Memory.service "notes"
    let memory := notebook [noted "1" "x"]
    let storage := pagesOf [noted "1" "x"]
    let chain := unreadableNotes
    memory.Reachable ∧
      memory.tables.find? table.name = some storage ∧
      chain.Reads storage ∧
      (table.runAll chain memory).1 ≠ .finished
        (((storage.found chain.keyCondition chain.forward).filter fun item =>
          chain.filter.all fun filter => filter.isTrue item).map chain.shows) := by
  intro table memory storage chain
  have reachable := notebook_reachable [noted "1" "x"]
  have isTable : memory.tables.find? table.name = some storage := rfl
  refine ⟨reachable, isTable, reads_unreadableNotes, ?_⟩
  have found := Memory.table_eq_ok_iff.mpr isTable
  have outcome : (table.runAll chain memory).1 = _ :=
    reads_unreadableNotes.runAll_eq (reachable.sound found) rfl found
  have only : storage.found chain.keyCondition chain.forward = [noted "1" "x"] :=
    List.mergeSort_singleton _
  rw [outcome, only]
  exact nofun

end ItemTable
