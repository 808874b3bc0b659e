import ItemTable.Memory.Service
import ItemTable.Proofs.Document.Compiling
import ItemTable.Proofs.Expression.Widening
import ItemTable.Proofs.Sequencing
import ItemTable.Service.Dispatch

/-!
# How a memory answers compiled reads

A memory reads the texts of a compiled document, then lists a page of a table or an
index, and presents what it listed.  The projection matters for the last of these steps
only, although the placeholders of all expressions are in one table: the conditions are
read as if there were no projection, and refused for the same reasons.
-/

namespace ItemTable

namespace ReadTerms

variable {terms : ReadTerms}

/-- All indexes are list indexes, and the paths of the projection begin with attributes. -/
structure Bounded (terms : ReadTerms) : Prop where
  conditions : ∀ condition ∈ terms.conditions, condition.isBounded
  paths : ∀ path ∈ terms.paths, path.isRooted ∧ path.isBounded

/-- The expressions can be rendered and read back. -/
structure Valid (terms : ReadTerms) : Prop where
  conditions : ∀ condition ∈ terms.conditions, condition.isWellFormed ∧ condition.isBounded
  paths : ∀ path ∈ terms.paths, path.isRooted ∧ path.isBounded

theorem Valid.bounded (valid : terms.Valid) : terms.Bounded :=
  ⟨fun condition member => (valid.conditions condition member).2, valid.paths⟩

/-- The projection of replies. -/
def shown (terms : ReadTerms) : Option (List Path) :=
  if terms.paths.isEmpty then none else some terms.paths

/-- A read with a key condition is a query. -/
def kind (terms : ReadTerms) : ReadKind :=
  if terms.keyCondition.isSome then .query else .scan

theorem sound_table (terms : ReadTerms) : terms.table.Sound :=
  PlaceholderTable.Opening.start.sound.meet _ _

theorem sound_filterTable (terms : ReadTerms) : terms.filterTable.Sound :=
  (PlaceholderTable.Opening.start.sound.meet _ _).meet _ _

theorem extends_filterTable (terms : ReadTerms) : terms.table.Extends terms.filterTable := by
  rw [terms.table_eq]
  exact terms.filterTable.extends_meet _ _

theorem knows_paths (terms : ReadTerms) :
    terms.table.Knows (terms.paths.flatMap Path.names) [] := by
  have knows := PlaceholderTable.Extends.knows (.refl terms.table)
  constructor
  · intro name mentioned
    exact knows.name name (List.mem_append_right _ mentioned)
  · intro value absent
    cases absent

end ReadTerms

namespace Memory

variable
    {terms : ReadTerms}
    {scope bare : Scope}
    {names : List String}
    {values : List AttributeValue}

/-! ## Reading the expressions -/

/-- A condition that may be absent is read alike with a later table. -/
theorem readCondition_widened
    {earlier table narrow : PlaceholderTable}
    {condition : Option Condition}
    (read : scope.HasRead table names values)
    (bareRead : bare.HasRead narrow names values)
    (sound : table.Sound)
    (narrowSound : narrow.Sound)
    (wider : table.Extends narrow)
    (extension : narrow.Extends
      (earlier.meet (condition.toList.flatMap Condition.names)
        (condition.toList.flatMap Condition.literals)))
    (bounded : ∀ tree ∈ condition, tree.isBounded)
    (part : String) :
    if condition.all Condition.isWellFormed then
      ∃ next bareNext,
        readCondition scope part (condition.map (·.spell table.naming)) =
            .ok (condition, next) ∧
          readCondition bare part (condition.map (·.spell narrow.naming)) =
            .ok (condition, bareNext) ∧
          next.HasRead table (names ++ condition.toList.flatMap Condition.names)
            (values ++ condition.toList.flatMap Condition.literals) ∧
          bareNext.HasRead narrow (names ++ condition.toList.flatMap Condition.names)
            (values ++ condition.toList.flatMap Condition.literals)
    else
      ∃ error,
        readCondition scope part (condition.map (·.spell table.naming)) = .error error ∧
          readCondition bare part (condition.map (·.spell narrow.naming)) = .error error := by
  cases condition with
  | none =>
      refine ⟨scope, bare, rfl, rfl, ?_, ?_⟩
      · rwa [Option.toList_none, List.flatMap_nil, List.flatMap_nil, List.append_nil,
          List.append_nil]
      · rwa [Option.toList_none, List.flatMap_nil, List.flatMap_nil, List.append_nil,
          List.append_nil]
  | some tree =>
      rw [Option.toList_some, List.flatMap_singleton, List.flatMap_singleton] at extension ⊢
      have outcome := read.condition_widened bareRead sound narrowSound wider extension
        (bounded tree rfl)
      rw [Option.all_some]
      split
      · rename_i valid
        rw [if_pos valid] at outcome
        rcases outcome with ⟨next, bareNext, result, bareResult, nextRead, bareNextRead⟩
        refine ⟨next, bareNext, ?_, ?_, nextRead, bareNextRead⟩
        · simp only [Option.map_some, readCondition, result]
          rfl
        · simp only [Option.map_some, readCondition, bareResult]
          rfl
      · rename_i refused
        rw [if_neg refused] at outcome
        rcases outcome with ⟨error, failed, bareFailed⟩
        refine ⟨invalid part error, ?_, ?_⟩
        · simp only [Option.map_some, readCondition, failed]
          rfl
        · simp only [Option.map_some, readCondition, bareFailed]
          rfl

/-- The projection is read, and then no placeholder is left over. -/
theorem readProjection_paths
    (read : scope.HasRead terms.table
      (terms.conditions.flatMap Condition.names)
      (terms.conditions.flatMap Condition.literals))
    (paths : ∀ path ∈ terms.paths, path.isRooted ∧ path.isBounded)
    (document : Document) :
    ∃ next,
      readProjection scope (terms.write document).projectionText? = .ok (terms.shown, next) ∧
        next.finish = .ok () := by
  have finished {next : Scope}
      (allRead : next.HasRead terms.table terms.names terms.literals) :
      next.finish = .ok () :=
    Scope.HasRead.finish allRead terms.sound_table
  by_cases empty : terms.paths = []
  · refine ⟨scope, ?_, finished ?_⟩
    · simp only [Document.projectionText?, ReadTerms.write, ReadTerms.shown, empty,
        List.isEmpty_nil, if_true]
      rfl
    · rw [ReadTerms.names, empty, List.flatMap_nil, List.append_nil]
      exact read
  · rcases read.projection terms.sound_table terms.knows_paths
        (fun path member => (paths path member).1)
        (fun path member => (paths path member).2) empty with
      ⟨next, result, nextRead⟩
    refine ⟨next, ?_, finished nextRead⟩
    simp only [Document.projectionText?, ReadTerms.write, ReadTerms.shown,
      List.isEmpty_eq_false_iff.mpr empty, Bool.false_eq_true, if_false]
    change readProjection scope (some (Path.spellAll terms.table.naming terms.paths)) = _
    simp only [readProjection, result]
    rfl

/-! ## Requests -/

/-- The request for a page that a document makes. -/
def pageRequest (document : Document) : ScanRequest where
  tableName := document.tableName
  index := document.index
  filter := Document.text? document.filter
  projection := document.projectionText?
  names := document.names
  values := document.values
  limit := document.limit.map fun limit => (limit : Int)
  start := document.start
  select := document.select
  consistent := document.consistent
  capacity := document.capacity

/-- The query that a document makes. -/
def queryRequest (document : Document) : QueryRequest where
  toScanRequest := pageRequest document
  keyCondition := Document.text? document.keyCondition
  forward := document.forward

theorem toScanRequest_eq
    {document : Document}
    (limited : ∀ limit ∈ document.limit, limit ≤ RequestFault.largestLimit) :
    document.toScanRequest = .ok (pageRequest document) := by
  have limits : document.requestLimit = .ok (document.limit.map fun limit => (limit : Int)) := by
    rw [Document.requestLimit]
    cases asked : document.limit with
    | none => rfl
    | some limit => exact if_pos (limited limit asked)
  rw [Document.toScanRequest]
  rw [limits]
  rfl

theorem readLimit_eq
    {asked : Option Nat}
    (positive : ∀ limit ∈ asked, 0 < limit) :
    readLimit (asked.map fun limit => (limit : Int)) = .ok asked := by
  cases asked with
  | none => rfl
  | some limit =>
      have isPositive : (0 : Int) < limit := Int.natCast_pos.mpr (positive limit rfl)
      exact if_pos isPositive

/-! ## Answers -/

/-- What a table is asked to list for a document. -/
def readRequest (selection : Option KeySelection) (document : Document) : ReadRequest where
  index := document.index
  partition := selection.map KeySelection.partition
  sort := selection >>= KeySelection.sort
  forward := selection.isNone || document.forward.getD true
  limit := document.limit
  start := document.start

/-- What a table lists for a document with the given key condition. -/
def listing
    (storage : Storage)
    (document : Document) :
    Option Condition → Except ServiceError ReadResult
  | none => orKeyError (storage.read (readRequest none document))
  | some condition => do
      let schema ← orKeyError (storage.schemaFor document.index)
      match schema.selection condition with
      | .error fault => .error (.validation fault.message)
      | .ok selection => orKeyError (storage.read (readRequest (some selection) document))

end Memory

namespace ReadTerms

open Memory (readCondition listing pageReply pageRequest)

/-- Read the conditions with the placeholders that there are before the projection. -/
def reading (terms : ReadTerms) : Except ServiceError Unit := do
  let spell := Option.map fun condition : Condition =>
    condition.spell terms.filterTable.naming
  let scope := Scope.start terms.filterTable.names.meanings terms.filterTable.values.meanings
  let (_, scope) ← readCondition scope "KeyConditionExpression" (spell terms.keyCondition)
  let _ ← readCondition scope "FilterExpression" (spell terms.filter)
  return ()

/-- The answer to a page of a compiled document. -/
def answer
    (terms : ReadTerms)
    (document : Document)
    (memory : Memory) :
    Except ServiceError PageReply := do
  let storage ← memory.table document.tableName
  terms.reading
  let result ← listing storage document terms.keyCondition
  pageReply (pageRequest (terms.write document)) terms.filter terms.shown result

end ReadTerms

namespace Memory

variable {terms : ReadTerms}

/-- Read all expressions of a request for a page. -/
def readExpressions
    (scope : Scope)
    (keyCondition filter projection : Option String) :
    Except ServiceError (Option Condition × Option Condition × Option (List Path)) := do
  let (keyCondition, scope) ← readCondition scope "KeyConditionExpression" keyCondition
  let (filter, scope) ← readCondition scope "FilterExpression" filter
  let (projection, scope) ← readProjection scope projection
  orInvalid "ExpressionAttributes" scope.finish
  return (keyCondition, filter, projection)

theorem readExpressions_bind
    {α : Type}
    (scope : Scope)
    (keyCondition filter projection : Option String)
    (next : Option Condition × Option Condition × Option (List Path) → Except ServiceError α) :
    (do
      let (keyCondition, scope) ← readCondition scope "KeyConditionExpression" keyCondition
      let (filter, scope) ← readCondition scope "FilterExpression" filter
      let (projection, scope) ← readProjection scope projection
      orInvalid "ExpressionAttributes" scope.finish
      next (keyCondition, filter, projection)) =
      readExpressions scope keyCondition filter projection >>= next := by
  rw [readExpressions]
  cases readCondition scope "KeyConditionExpression" keyCondition with
  | error error => rfl
  | ok key =>
      simp only [ok_bind]
      cases readCondition key.2 "FilterExpression" filter with
      | error error => rfl
      | ok filter =>
          simp only [ok_bind]
          cases readProjection filter.2 projection with
          | error error => rfl
          | ok projection =>
              simp only [ok_bind]
              cases orInvalid "ExpressionAttributes" projection.2.finish <;> rfl

/-- The expressions of a compiled document are read as what they were made from, if the
conditions can be read at all. -/
theorem readExpressions_eq
    (bounded : terms.Bounded)
    (document : Document) :
    readExpressions (.start terms.table.names.meanings terms.table.values.meanings)
        (Document.text? (terms.keyCondition.map terms.written))
        (Document.text? (terms.filter.map terms.written))
        (terms.write document).projectionText? =
      terms.reading.map fun _ => (terms.keyCondition, terms.filter, terms.shown) := by
  have text (condition : Option Condition) :
      Document.text? (condition.map terms.written) =
        condition.map (·.spell terms.table.naming) := by
    cases condition <;> rfl
  have readKey := readCondition_widened (.start terms.table) (.start terms.filterTable)
    terms.sound_table terms.sound_filterTable terms.extends_filterTable
    (terms.keyTable.extends_meet _ _)
    (fun tree isKey => bounded.conditions tree
      (List.mem_append_left _ (Option.mem_toList.mpr isKey)))
    "KeyConditionExpression"
  rw [text, text, readExpressions, ReadTerms.reading]
  split at readKey
  · rcases readKey with ⟨behindKey, bareBehindKey, keyDone, bareKeyDone, keyRead, bareKeyRead⟩
    have readFilter := readCondition_widened keyRead bareKeyRead terms.sound_table
      terms.sound_filterTable terms.extends_filterTable (.refl terms.filterTable)
      (fun tree isFilter => bounded.conditions tree
        (List.mem_append_right _ (Option.mem_toList.mpr isFilter)))
      "FilterExpression"
    rw [keyDone, bareKeyDone, ok_bind, ok_bind]
    dsimp only
    split at readFilter
    · rcases readFilter with
        ⟨behindFilter, bareBehindFilter, filterDone, bareFilterDone, filterRead, -⟩
      rw [List.nil_append, List.nil_append, ← List.flatMap_append, ← List.flatMap_append]
        at filterRead
      rcases readProjection_paths filterRead bounded.paths document with
        ⟨behindProjection, projected, finished⟩
      rw [filterDone, bareFilterDone, ok_bind, ok_bind]
      dsimp only
      rw [projected, ok_bind]
      dsimp only
      rw [finished]
      rfl
    · rcases readFilter with ⟨error, failed, bareFailed⟩
      rw [failed, bareFailed]
      rfl
  · rcases readKey with ⟨error, failed, bareFailed⟩
    rw [failed, bareFailed]
    rfl

/-- Conditions that expressions can say are read. -/
theorem reading_eq_ok (valid : terms.Valid) : terms.reading = .ok () := by
  have isKey (tree : Condition) (member : tree ∈ terms.keyCondition) :=
    valid.conditions tree (List.mem_append_left _ (Option.mem_toList.mpr member))
  have isFilter (tree : Condition) (member : tree ∈ terms.filter) :=
    valid.conditions tree (List.mem_append_right _ (Option.mem_toList.mpr member))
  have sound := terms.sound_filterTable
  have readKey := readCondition_widened (.start terms.filterTable) (.start terms.filterTable)
    sound sound (.refl _) (terms.keyTable.extends_meet _ _)
    (fun tree member => (isKey tree member).2) "KeyConditionExpression"
  rw [if_pos (Option.all_eq_true _ _ |>.mpr fun tree member => (isKey tree member).1)] at readKey
  rcases readKey with ⟨-, behindKey, -, keyDone, -, keyRead⟩
  have readFilter := readCondition_widened keyRead keyRead sound sound (.refl _) (.refl _)
    (fun tree member => (isFilter tree member).2) "FilterExpression"
  rw [if_pos (Option.all_eq_true _ _ |>.mpr fun tree member => (isFilter tree member).1)]
    at readFilter
  rcases readFilter with ⟨-, behindFilter, -, filterDone, -⟩
  rw [ReadTerms.reading, keyDone, ok_bind]
  dsimp only
  rw [filterDone]
  rfl

/-- A scan is answered with what the table lists. -/
theorem scan_eq
    {document : Document}
    (bounded : terms.Bounded)
    (isScan : terms.keyCondition = none)
    (positive : ∀ limit ∈ document.limit, 0 < limit)
    (fits : checkSelect document.select (terms.write document).projectionText? = .ok ())
    (memory : Memory) :
    memory.scan (pageRequest (terms.write document)) = terms.answer document memory := by
  rw [ReadTerms.answer, isScan]
  apply bind_congr_of_ok
  intro storage _
  change (readLimit (document.limit.map fun limit => (limit : Int)) >>= _) = _
  rw [readLimit_eq positive, ok_bind]
  change (checkSelect document.select (terms.write document).projectionText? >>= _) = _
  rw [fits, ok_bind]
  have steps := readExpressions_bind
    (.start terms.table.names.meanings terms.table.values.meanings)
    (Document.text? (terms.keyCondition.map terms.written))
    (Document.text? (terms.filter.map terms.written))
    (terms.write document).projectionText?
    fun (_, filter, projection) => do
      let result ← orKeyError (storage.read (readRequest none document))
      pageReply (pageRequest (terms.write document)) filter projection result
  rw [readExpressions_eq bounded document, isScan] at steps
  refine (Eq.trans ?_ steps).trans ?_
  · rfl
  · cases terms.reading <;> rfl

/-- A query is answered with what the table lists. -/
theorem query_eq
    {document : Document}
    {condition : Condition}
    (bounded : terms.Bounded)
    (isQuery : terms.keyCondition = some condition)
    (positive : ∀ limit ∈ document.limit, 0 < limit)
    (fits : checkSelect document.select (terms.write document).projectionText? = .ok ())
    (memory : Memory) :
    memory.query (queryRequest (terms.write document)) = terms.answer document memory := by
  rw [ReadTerms.answer, isQuery]
  apply bind_congr_of_ok
  intro storage _
  change (readLimit (document.limit.map fun limit => (limit : Int)) >>= _) = _
  rw [readLimit_eq positive, ok_bind]
  change (checkSelect document.select (terms.write document).projectionText? >>= _) = _
  rw [fits, ok_bind]
  have text :
      (queryRequest (terms.write document)).keyCondition =
        some (condition.spell terms.table.naming) := by
    change Document.text? (terms.keyCondition.map terms.written) = _
    rw [isQuery]
    rfl
  rw [text]
  have steps := readExpressions_bind
    (.start terms.table.names.meanings terms.table.values.meanings)
    (Document.text? (terms.keyCondition.map terms.written))
    (Document.text? (terms.filter.map terms.written))
    (terms.write document).projectionText?
    fun (keyCondition, filter, projection) => do
      let result ← listing storage document keyCondition
      pageReply (pageRequest (terms.write document)) filter projection result
  rw [readExpressions_eq bounded document, isQuery] at steps
  refine (Eq.trans ?_ steps).trans ?_
  · change _ = (readCondition _ _ (some (condition.spell terms.table.naming)) >>= _)
    have scope :
        Scope.start (queryRequest (terms.write document)).names
            (queryRequest (terms.write document)).values =
          .start terms.table.names.meanings terms.table.values.meanings :=
      rfl
    rw [readCondition]
    rcases read : (Scope.start terms.table.names.meanings terms.table.values.meanings).condition
      (condition.spell terms.table.naming) with ⟨error | key, behindKey⟩
    · simp only [scope, read, pure_bind]
      rfl
    · simp only [scope, read, pure_bind]
      change (Except.ok key >>= _) = (Except.ok (some key, behindKey) >>= _)
      rw [ok_bind, ok_bind]
      apply bind_congr_of_ok
      intro filter _
      apply bind_congr_of_ok
      intro projection _
      apply bind_congr_of_ok
      intro _ _
      rw [listing]
      change (orKeyError (storage.schemaFor document.index) >>= _) = _
      cases orKeyError (storage.schemaFor document.index) with
      | error error => rfl
      | ok schema =>
          simp only [ok_bind]
          cases schema.selection key <;> rfl
  · cases terms.reading <;> rfl

end Memory

end ItemTable
