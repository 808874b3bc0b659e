import ItemTable.Proofs.Document.Continuing

/-!
# Compiled documents convey their conditions

A document of any operation may have a key condition, a filter and a write condition.
Compiling it writes each of them as a text, and no others; with the placeholders that
the document then explains, each text is read as the condition that it was made from.
Which key the next page begins behind is no matter.
-/

namespace ItemTable

/-- There is a text if there is a condition, and the condition is what the text is read
as if it is one that can be read at all. -/
inductive ReadsBack
    (names : NameMap String)
    (values : NameMap AttributeValue) :
    Option Condition → Option String → Prop
  | absent : ReadsBack names values none none
  | present
      {condition : Condition}
      {text : String}
      (back : condition.isWellFormed → condition.isBounded →
        ((Scope.start names values).condition text).1 = .ok condition) :
      ReadsBack names values (some condition) (some text)

namespace Document

/-- A document whose conditions are trees. -/
structure Asks
    (document : Document)
    (keyCondition filter condition : Option Condition) : Prop where
  keyCondition : document.keyCondition = keyCondition.map .raw
  filter : document.filter = filter.map .raw
  condition : document.condition = condition.map .raw
  names : document.names = ∅
  values : document.values = ∅

/-- A compiled document whose texts are read as conditions. -/
structure Conveys
    (document : Document)
    (keyCondition filter condition : Option Condition) : Prop where
  isCompiled : document.isCompiled
  keyCondition : ReadsBack document.names document.values keyCondition
    (text? document.keyCondition)
  filter : ReadsBack document.names document.values filter (text? document.filter)
  condition : ReadsBack document.names document.values condition (text? document.condition)

variable
    {document : Document}
    {keyCondition filter condition : Option Condition}

theorem isText_map_raw : isCompiled.isText (condition.map .raw) ↔ condition = none := by
  cases condition with
  | none => exact ⟨fun _ => rfl, fun _ => rfl⟩
  | some tree => exact ⟨nofun, nofun⟩

/-- A tree that is settled is what its text is read as. -/
theorem Settles.readsBack
    {later : Document}
    {field : Option ExpressionField}
    (settles : later.Settles (condition.map .raw) field) :
    ReadsBack later.names later.values condition (text? field) := by
  cases condition with
  | none =>
      cases settles
      exact .absent
  | some tree =>
      cases settles with
      | tree reads => exact .present reads

/-- A document of trees is compiled to one that conveys them. -/
theorem Asks.compile
    (asks : document.Asks keyCondition filter condition)
    (accepted : ∀ tree ∈ keyCondition, tree.checkKey = .ok ()) :
    ∃ compiled,
      document.compile = .ok compiled ∧ compiled.Conveys keyCondition filter condition ∧
        compiled.limit = document.limit := by
  have legible : document.references.IsLegible := by
    rw [references, asks.names, asks.values]
    exact References.isLegible_empty
  have checked : ∀ tree, document.keyCondition = some (.raw tree) → tree.IsKeyCondition := by
    intro tree posed
    rw [asks.keyCondition] at posed
    rcases Option.map_eq_some_iff.mp posed with ⟨_, present, ⟨⟩⟩
    exact Condition.checkKey_eq_ok_iff.mp (accepted tree present)
  rcases exists_compile_eq_ok legible checked with ⟨later, compiled, completes⟩
  refine ⟨later, compiled, ⟨completes.isCompiled, ?_, ?_, ?_⟩, ?_⟩
  · exact Settles.readsBack (asks.keyCondition ▸ completes.keyCondition)
  · exact Settles.readsBack (asks.filter ▸ completes.filter)
  · exact Settles.readsBack (asks.condition ▸ completes.condition)
  · rw [completes.others]

/-- The document of a write with the text of its condition. -/
def guarded (document : Document) (condition : Option Condition) : Document :=
  let table := PlaceholderTable.meet .start (condition.toList.flatMap Condition.names)
    (condition.toList.flatMap Condition.literals)
  { document with
    condition := condition.map fun tree => .compiled (tree.spell table.naming)
    names := table.names.meanings
    values := table.values.meanings }

/-- The document of a write is compiled to the text of its condition. -/
theorem Asks.compile_guarded
    (asks : document.Asks none none condition)
    (whole : document.projection = none) :
    document.compile = .ok (document.guarded condition) := by
  rw [Document.compile]
  split
  · rename_i compiled
    rw [isCompiled, Bool.and_eq_true, Bool.and_eq_true, asks.condition, isText_map_raw] at compiled
    rcases compiled with ⟨⟨-, rfl⟩, -⟩
    rcases document with ⟨_, _, _, _, _, _, _, _, _, _, _, _, _, _, _, _⟩
    rcases asks with ⟨rfl, rfl, rfl, rfl, rfl⟩
    rfl
  · have fresh : PlaceholderTable.seeded document.names document.values = .start := by
      rw [asks.names, asks.values]
      rfl
    simp only [fresh, asks.keyCondition, asks.filter, asks.condition, whole, Option.map_none,
      compileKeyCondition, ok_bind, compileCondition_raw (.refl _)]
    rcases document with ⟨_, _, _, _, _, _, _, _, _, _, _, _, _, _, _, _⟩
    rcases asks with ⟨rfl, rfl, -, -, -⟩
    cases whole
    rfl

theorem Asks.compile_eq_error
    {tree : Condition}
    {fault : KeyConditionFault}
    (asks : document.Asks (some tree) filter condition)
    (refused : tree.checkKey = .error fault) :
    document.compile = .error fault :=
  Document.compile_eq_error asks.keyCondition refused

/-! ## Documents that are sent again -/

/-- A document of conditions, as trees or as texts. -/
inductive Bears
    (document : Document)
    (keyCondition filter condition : Option Condition) : Prop
  | trees (asks : document.Asks keyCondition filter condition)
  | texts (conveys : document.Conveys keyCondition filter condition)

theorem Asks.withStart
    (asks : document.Asks keyCondition filter condition)
    (start : Item) :
    { document with start }.Asks keyCondition filter condition :=
  ⟨asks.keyCondition, asks.filter, asks.condition, asks.names, asks.values⟩

/-- It does not matter where the next page begins. -/
theorem Bears.withStart
    (bears : document.Bears keyCondition filter condition)
    (start : Item) :
    { document with start }.Bears keyCondition filter condition := by
  rcases bears with asks | conveys
  · exact .trees (asks.withStart start)
  · exact .texts ⟨conveys.isCompiled, conveys.keyCondition, conveys.filter, conveys.condition⟩

theorem Bears.compile
    (bears : document.Bears keyCondition filter condition)
    (accepted : ∀ tree ∈ keyCondition, tree.checkKey = .ok ()) :
    ∃ compiled,
      document.compile = .ok compiled ∧ compiled.Conveys keyCondition filter condition ∧
        compiled.limit = document.limit := by
  rcases bears with asks | conveys
  · exact asks.compile accepted
  · exact ⟨document, if_pos conveys.isCompiled, conveys, rfl⟩

end Document

end ItemTable
