import ItemTable.Proofs.Storage.Alike
import ItemTable.Proofs.Storage.Pages

/-!
# Reads list what qualifies

A read without a limit lists the items whose keys are those that are asked for, all of
them and each of them once, in the order of their keys.  In which order the partitions
lie does not show in the answer, nor whether a partition was found by its key or every
partition was looked through.
-/

namespace ItemTable

/-- An item qualifies by its key: it holds a value of the right kind for each key
attribute, and these are the values that are asked for. -/
structure KeySchema.Qualifies
    (schema : KeySchema)
    (partition : Option KeyValue)
    (sort : Option SortCondition)
    (item : Item)
    (key : PrimaryKey) : Prop where
  hasKey : schema.HasKey item key
  partition : ∀ value ∈ partition, value.order key.partition = .eq
  sort : ∀ condition ∈ sort, condition.holds key.sort

/-! ## The order of a read -/

/-- Keys are ordered by their partition keys first. -/
def PrimaryKey.order (left right : PrimaryKey) : Ordering :=
  (left.partition.order right.partition).then (left.sort.order right.sort)

namespace ReadRequest

/-- How a read orders two items: a scan by their keys, a query by their sort keys, and a
read of an index then by the keys that they have in the table. -/
def order
    (request : ReadRequest)
    (leftKey rightKey leftTable rightTable : PrimaryKey) :
    Ordering :=
  let own :=
    if request.partition.isSome then
      leftKey.sort.order rightKey.sort
    else
      leftKey.order rightKey
  if request.index.isSome then own.then (leftTable.order rightTable) else own

/-- One item comes before another, strictly, in the direction of a read. -/
def ListsBefore
    (request : ReadRequest)
    (table schema : KeySchema)
    (left right : Item) :
    Prop :=
  ∃ leftKey rightKey leftTable rightTable,
    schema.HasKey left leftKey ∧ schema.HasKey right rightKey ∧
      table.HasKey left leftTable ∧ table.HasKey right rightTable ∧
        request.order leftKey rightKey leftTable rightTable =
          if request.forward then .lt else .gt

end ReadRequest

namespace ReadView

variable {view : ReadView} {request : ReadRequest}

/-- Positions are compared as the read orders their items. -/
theorem compare_placeOf
    (asksPartition : view.partition.isSome = request.partition.isSome)
    (ofIndex : view.index.isSome = request.index.isSome)
    (leftKey rightKey leftTable rightTable : PrimaryKey) :
    compare (view.placeOf leftKey leftTable) (view.placeOf rightKey rightTable) =
      request.order leftKey rightKey leftTable rightTable := by
  have compared (left right : KeyValue) : compare left right = left.order right := rfl
  rw [placeOf, placeOf, ReadRequest.order, asksPartition, ofIndex]
  cases request.partition.isSome <;> cases request.index.isSome <;>
    simp [List.compare_cons_cons, PrimaryKey.order, Ordering.then_assoc, compared]

end ReadView

namespace Storage

variable
    {storage : Storage}
    {request : ReadRequest}
    {schema : KeySchema}
    {partition : Option KeyValue}

/-- What a request sees of a table whose index exists, if its partition value has the
kind of the partition key. -/
theorem exists_view
    (indexed : storage.schemaFor request.index = .ok schema)
    (typed : request.partition.mapM schema.partition.keyValue = .ok partition) :
    ∃ view,
      storage.view request = .ok view ∧
        schema = view.schema ∧ view.index.isSome = request.index.isSome ∧
        partition = view.partition ∧ request.sort = view.sort := by
  refine ⟨_, by rw [view, indexed, ok_bind, typed]; rfl, ?_, ?_, rfl, rfl⟩
  · cases index : request.index with
    | none =>
        rw [index] at indexed
        cases indexed
        rfl
    | some name => rfl
  · cases request.index <;> rfl

/-- A read without a limit and a key to go on from lists every row of its view. -/
theorem read_eq_rows
    {view : ReadView}
    (seen : storage.view request = .ok view)
    (unlimited : request.limit = none)
    (fromBeginning : request.start.isEmpty) :
    storage.read request =
      .ok {
        items := (view.remaining storage request.forward request.start).map Prod.snd
        lastKey := ∅ } := by
  rw [read_eq seen (.inl fromBeginning), unlimited]
  rfl

/-! ## Which items are listed -/

theorem selects_iff_qualifies
    {view : ReadView}
    {item : Item}
    (keys : view.schema = schema) :
    view.selects item ↔ ∃ key, schema.Qualifies view.partition view.sort item key := by
  rw [ReadView.selects_iff, keys]
  refine exists_congr fun key => ?_
  rw [KeySchema.primaryKey_eq_ok_iff]
  exact ⟨fun ⟨hasKey, inPartition, inRange⟩ => ⟨hasKey, inPartition, inRange⟩,
    fun ⟨hasKey, inPartition, inRange⟩ => ⟨hasKey, inPartition, inRange⟩⟩

/-- One that is listed before another by its row comes before it in the order of the
read. -/
theorem listsBefore_of_precedes
    {view : ReadView}
    {left right : Row}
    (asksPartition : view.partition.isSome = request.partition.isSome)
    (ofIndex : view.index.isSome = request.index.isSome)
    (leftPlaced : view.position? left.2 = some left.1)
    (rightPlaced : view.position? right.2 = some right.1)
    (precedes : Row.Precedes request.forward left right) :
    request.ListsBefore view.table view.schema left.2 right.2 := by
  rcases ReadView.position?_eq_some_iff.mp leftPlaced with
    ⟨leftKey, leftTable, leftKeyed, leftFiled, leftPlace⟩
  rcases ReadView.position?_eq_some_iff.mp rightPlaced with
    ⟨rightKey, rightTable, rightKeyed, rightFiled, rightPlace⟩
  rw [KeySchema.primaryKey_eq_ok_iff] at leftKeyed leftFiled rightKeyed rightFiled
  refine ⟨leftKey, rightKey, leftTable, rightTable, leftKeyed, rightKeyed, leftFiled,
    rightFiled, ?_⟩
  rw [← ReadView.compare_placeOf asksPartition ofIndex, ← leftPlace, ← rightPlace]
  rw [Row.Precedes] at precedes
  cases direction : request.forward with
  | true =>
      rw [direction] at precedes
      exact precedes
  | false =>
      rw [direction] at precedes
      exact Std.OrientedCmp.gt_of_lt precedes

/-! ## How the items are found -/

/-- The partitions may lie in any order. -/
theorem Sound.alike_of_perm
    {visited : List (KeyValue × Partition)}
    (sound : storage.Sound)
    (perm : visited.Perm storage.partitions) :
    { storage with partitions := visited }.Alike storage := by
  have visitedSound : { storage with partitions := visited }.Sound := by
    constructor
    · refine (perm.pairwise_iff ?_).mpr sound.apart
      exact fun different equal => different (Std.OrientedCmp.eq_symm equal)
    · exact fun entry member => sound.partitions entry (perm.subset member)
  have sameItems (item : Item) :
      item ∈ { storage with partitions := visited }.items ↔ item ∈ storage.items := by
    simp only [mem_items, perm.mem_iff]
  refine ⟨visitedSound, sound, rfl, rfl, fun key => Option.ext fun item => ?_⟩
  rw [visitedSound.item?_eq_some_iff, sound.item?_eq_some_iff, sameItems]

/-- Looking up one partition finds what looking through every partition finds. -/
theorem Sound.candidates_perm
    {view : ReadView}
    (sound : storage.Sound)
    (ofTable : storage.schema = view.table) :
    ((storage.candidates view.index.isSome view.partition).filter view.selects).Perm
      (storage.items.filter view.selects) := by
  have candidatesNodup : (storage.candidates view.index.isSome view.partition).Nodup := by
    apply (ReadView.candidates_apart sound _ _).imp_of_mem
    rintro left right candidate - apart rfl
    rcases sound.keyed (ReadView.mem_items_of_mem_candidates candidate) with ⟨key, keyed⟩
    have different := apart key key keyed keyed
    rw [key.isSame_refl] at different
    cases different
  rw [List.perm_ext_iff_of_nodup (candidatesNodup.filter _) (sound.items_nodup.filter _)]
  intro item
  rw [List.mem_filter, List.mem_filter]
  refine and_congr_left fun selected => ?_
  exact ⟨ReadView.mem_items_of_mem_candidates,
    fun stored => ReadView.mem_candidates sound ofTable stored selected⟩

/-! ## The whole answer -/

/-- A read without a limit and from the beginning lists exactly the stored items that
qualify, each once and in strict order, and names no key to go on from.  It lists the
same in whatever order the partitions are visited, and these are the items that looking
through every partition finds, also where one partition is looked up by its key. -/
theorem read_lists_qualifying
    (reachable : storage.Reachable)
    (indexed : storage.schemaFor request.index = .ok schema)
    (typed : request.partition.mapM schema.partition.keyValue = .ok partition)
    (unlimited : request.limit = none)
    (fromBeginning : request.start.isEmpty) :
    ∃ items,
      storage.read request = .ok { items, lastKey := ∅ } ∧
        items.Nodup ∧
        (∀ item,
          item ∈ items ↔
            item ∈ storage.items ∧
              ∃ key, schema.Qualifies partition request.sort item key) ∧
        items.Pairwise (request.ListsBefore storage.schema schema) ∧
        (∀ visited,
          visited.Perm storage.partitions →
            { storage with partitions := visited }.read request =
              .ok { items, lastKey := ∅ }) ∧
        items.Perm (storage.items.filter (isSelected schema partition request.sort)) ∧
        ((storage.candidates request.index.isSome partition).filter
            (isSelected schema partition request.sort)).Perm
          (storage.items.filter (isSelected schema partition request.sort)) := by
  have sound := reachable.sound
  rcases exists_view indexed typed with ⟨view, seen, rfl, ofIndex, rfl, inRange⟩
  have ofTable : storage.schema = view.table := (view_keys seen).1
  have asksPartition : view.partition.isSome = request.partition.isSome := by
    rw [← Option.not_isNone, isNone_of_mapM typed, Option.not_isNone]
  have sorted := ReadView.remaining_sorted sound ofTable request.forward request.start
  have placed :
      ∀ row ∈ view.remaining storage request.forward request.start,
        view.position? row.2 = some row.1 :=
    fun row member => ((ReadView.mem_remaining sound ofTable).mp member).1.2.2
  have distinct := ReadView.nodup_items_of_sorted sorted placed
  have answered := read_eq_rows seen unlimited fromBeginning
  rw [inRange, ← ofIndex]
  refine ⟨_, answered, distinct, fun item => ?_, ?_, fun visited perm => ?_, ?_, ?_⟩
  · rw [ReadView.mem_remaining_items sound ofTable fromBeginning, selects_iff_qualifies rfl]
  · rw [List.pairwise_map, ofTable]
    apply sorted.imp_of_mem
    intro left right leftMember rightMember precedes
    exact listsBefore_of_precedes asksPartition ofIndex (placed left leftMember)
      (placed right rightMember) precedes
  · rw [← answered]
    exact (sound.alike_of_perm perm).read_eq request
  · apply (List.perm_ext_iff_of_nodup distinct (sound.items_nodup.filter _)).mpr
    intro item
    rw [ReadView.mem_remaining_items sound ofTable fromBeginning, List.mem_filter]
    rfl
  · exact sound.candidates_perm ofTable

/-- A post of an author, with its date. -/
def post (id author date : String) : Item :=
  ((lettered id).insert "author" (.string author)).insert "date" (.number date)

/-- The keys of posts by author and date. -/
def byAuthor : KeySchema :=
  ⟨⟨"author", .string⟩, some ⟨"date", .number⟩⟩

/-- Posts under one letter each, and by author and date. -/
def posts : Storage :=
  afterAll
    { create ⟨⟨"letter", .string⟩, none⟩ with
      indexes := (∅ : NameMap KeySchema).insert "byAuthor" byAuthor }
    ([lettered "a", post "d" "Ada" "10", post "b" "Ada" "9", post "e" "Eve" "9",
      post "c" "Ada" "10.0"].map unchecked)

/-- The posts of one author behind a date, the latest first. -/
def latestPosts : ReadRequest where
  index := some "byAuthor"
  partition := some (.string "Ada")
  sort := some (.greater (.number "9.5"))
  forward := false
  limit := none
  start := ∅

/-- Two posts of one author and one date are both listed; posts of others, older ones
and what is no post are not. -/
theorem read_lists_qualifying_posts :
    posts.Reachable ∧
      ∃ items,
        posts.read latestPosts = .ok { items, lastKey := ∅ } ∧
          items.Pairwise (latestPosts.ListsBefore posts.schema byAuthor) ∧
            items.Perm [post "d" "Ada" "10", post "c" "Ada" "10.0"] := by
  have reachable : posts.Reachable :=
    .afterAll (.addIndex (.create _) rfl) _
  have indexed : posts.schemaFor latestPosts.index = .ok byAuthor :=
    rfl
  have partition : latestPosts.partition.mapM byAuthor.partition.keyValue =
      .ok (some (.string "Ada")) :=
    rfl
  rcases read_lists_qualifying reachable indexed partition rfl rfl with
    ⟨items, answered, -, -, sorted, -, perm, -⟩
  exact ⟨reachable, items, answered, sorted, perm⟩

end Storage

end ItemTable
