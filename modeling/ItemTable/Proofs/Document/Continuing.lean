import ItemTable.Proofs.Document.Compiling
import ItemTable.Proofs.Expression.Projection
import ItemTable.Proofs.KeyCondition.Grammar
import ItemTable.Proofs.Placeholder.Legibility

/-!
# Documents that are compiled again

A document may hold trees beside texts that were compiled before.  Compiling it goes on
from the placeholders that it explains: each tree becomes a text that is read as the
tree, and the texts that are there stay and are read as before.  A key condition that is
refused leaves the document alone.

So expressions can be added to a document at any time.  However often requests are made
from it in between, with or without success, what it says already keeps its meaning.
-/

namespace ItemTable

open PlaceholderTable (projectedPaths)

namespace Document

/-! ## What a document says -/

/-- What the placeholders of the document stand for. -/
def references (document : Document) : References where
  names := document.names
  values := document.values

/-- With the placeholders of the document, a text is read as a condition. -/
def Reads (document : Document) (text : String) (condition : Condition) : Prop :=
  ((Scope.start document.names document.values).condition text).1 = .ok condition

/-- With the placeholders of the document, a text is read as a projection. -/
def ReadsPaths (document : Document) (text : String) (paths : List Path) : Prop :=
  ((Scope.start document.names document.values).projection text).1 = .ok paths

/-- The texts of an earlier document are there. -/
structure KeepsTexts (later earlier : Document) : Prop where
  keyCondition : ∀ text,
    earlier.keyCondition = some (.compiled text) → later.keyCondition = some (.compiled text)
  filter : ∀ text, earlier.filter = some (.compiled text) → later.filter = some (.compiled text)
  condition : ∀ text,
    earlier.condition = some (.compiled text) → later.condition = some (.compiled text)
  projection : ∀ text,
    earlier.projection = some (.compiled text) → later.projection = some (.compiled text)

/-- The texts of an earlier document are there, and whatever could be read with the
placeholders of the earlier document is read as before. -/
structure Upholds (later earlier : Document) : Prop where
  texts : later.KeepsTexts earlier
  names : ∀ placeholder name,
    earlier.names.find? placeholder = some name → later.names.find? placeholder = some name
  values : ∀ placeholder value,
    earlier.values.find? placeholder = some value → later.values.find? placeholder = some value
  conditions : ∀ text condition, earlier.Reads text condition → later.Reads text condition
  projections : ∀ text paths, earlier.ReadsPaths text paths → later.ReadsPaths text paths

/-- What a condition becomes: a text stays, and a tree becomes a text that is read as the
tree if it is well formed; list indexes are numbers that a path can hold. -/
inductive Settles (later : Document) :
    Option ExpressionField → Option ExpressionField → Prop
  | absent : Settles later none none
  | text (text : String) : Settles later (some (.compiled text)) (some (.compiled text))
  | tree
      {condition : Condition}
      {text : String}
      (reads : condition.isWellFormed → condition.isBounded → later.Reads text condition) :
      Settles later (some (.raw condition)) (some (.compiled text))

/-- What a projection becomes: a text stays, and names become a text that is read as
their paths, or nothing if there are none. -/
inductive SettlesPaths (later : Document) :
    Option ProjectionField → Option ProjectionField → Prop
  | absent : SettlesPaths later none none
  | text (text : String) : SettlesPaths later (some (.compiled text)) (some (.compiled text))
  | blank
      {entries : List String}
      (empty : projectedPaths entries = []) :
      SettlesPaths later (some (.raw entries)) none
  | names
      {entries : List String}
      {text : String}
      (reads : later.ReadsPaths text (projectedPaths entries)) :
      SettlesPaths later (some (.raw entries)) (some (.compiled text))

/-- A document has been compiled: its expressions are texts, which say what they said,
and nothing besides the expressions and their placeholders has changed. -/
structure Completes (later document : Document) : Prop where
  isCompiled : later.isCompiled
  upholds : later.Upholds document
  keyCondition : later.Settles document.keyCondition later.keyCondition
  filter : later.Settles document.filter later.filter
  condition : later.Settles document.condition later.condition
  projection : later.SettlesPaths document.projection later.projection
  others : later = { document with
    keyCondition := later.keyCondition
    filter := later.filter
    condition := later.condition
    projection := later.projection
    names := later.names
    values := later.values }
  compile : later.compile = .ok later
  isLegible : later.references.IsLegible

/-- What can become of a document: expressions are set that are no texts yet, or anything
else that is neither a text nor a placeholder, and requests are made from it, which may
fail. -/
inductive Becomes (first : Document) : Document → Prop
  | start : Becomes first first
  | edit
      {document edited : Document}
      (before : Becomes first document)
      (texts : edited.KeepsTexts document)
      (names : edited.names = document.names)
      (values : edited.values = document.values) :
      Becomes first edited
  | request
      {α : Type}
      {document : Document}
      (before : Becomes first document)
      (make : Document → Except RequestFault α) :
      Becomes first (document.compileTo make).2

variable {document later : Document}

theorem KeepsTexts.refl (document : Document) : document.KeepsTexts document :=
  ⟨fun _ => id, fun _ => id, fun _ => id, fun _ => id⟩

theorem KeepsTexts.trans
    {earlier : Document}
    (second : later.KeepsTexts document)
    (first : document.KeepsTexts earlier) :
    later.KeepsTexts earlier where
  keyCondition text isText := second.keyCondition text (first.keyCondition text isText)
  filter text isText := second.filter text (first.filter text isText)
  condition text isText := second.condition text (first.condition text isText)
  projection text isText := second.projection text (first.projection text isText)

/-- Placeholders that are explained as before let everything be read as before. -/
theorem KeepsTexts.upholds
    (texts : later.KeepsTexts document)
    (within : document.references.Within later.references) :
    later.Upholds document where
  texts := texts
  names := within.names
  values := within.values
  conditions _ _ reads := References.Within.condition_fst within reads
  projections _ _ reads := References.Within.projection_fst within reads

theorem Upholds.within (upholds : later.Upholds document) :
    document.references.Within later.references :=
  ⟨upholds.names, upholds.values⟩

theorem Upholds.refl (document : Document) : document.Upholds document :=
  (KeepsTexts.refl document).upholds (.refl document.references)

theorem Upholds.trans
    {earlier : Document}
    (second : later.Upholds document)
    (first : document.Upholds earlier) :
    later.Upholds earlier :=
  (second.texts.trans first.texts).upholds (first.within.trans second.within)

/-! ## Fields that are settled -/

section

variable
    {before after : Option ExpressionField}
    {projection projected : Option ProjectionField}

theorem Settles.isText (settles : later.Settles before after) : isCompiled.isText after := by
  cases settles <;> rfl

theorem Settles.eq_of_text
    (settles : later.Settles before after)
    (text : String)
    (isText : before = some (.compiled text)) :
    after = some (.compiled text) := by
  subst isText
  cases settles
  rfl

theorem SettlesPaths.isText
    (settles : later.SettlesPaths projection projected) :
    projected.all fun field => field.text?.isSome := by
  cases settles <;> rfl

theorem SettlesPaths.eq_of_text
    (settles : later.SettlesPaths projection projected)
    (text : String)
    (isText : projection = some (.compiled text)) :
    projected = some (.compiled text) := by
  subst isText
  cases settles
  rfl

/-- A field without a tree is settled as it is. -/
theorem settles_of_isText (isText : isCompiled.isText before) : later.Settles before before := by
  match before with
  | none => exact .absent
  | some (.compiled text) => exact .text text
  | some (.raw tree) => cases isText

theorem settlesPaths_of_isText
    (isText : projection.all fun field => field.text?.isSome) :
    later.SettlesPaths projection projection := by
  match projection with
  | none => exact .absent
  | some (.compiled text) => exact .text text
  | some (.raw entries) => cases isText

end

/-- A document has been compiled if all expressions are settled and all placeholders are
explained as before. -/
theorem completes
    (within : document.references.Within later.references)
    (legible : later.references.IsLegible)
    (keyCondition : later.Settles document.keyCondition later.keyCondition)
    (filter : later.Settles document.filter later.filter)
    (condition : later.Settles document.condition later.condition)
    (projection : later.SettlesPaths document.projection later.projection)
    (others : later = { document with
      keyCondition := later.keyCondition
      filter := later.filter
      condition := later.condition
      projection := later.projection
      names := later.names
      values := later.values }) :
    later.Completes document := by
  have texts : later.KeepsTexts document :=
    ⟨keyCondition.eq_of_text, filter.eq_of_text, condition.eq_of_text, projection.eq_of_text⟩
  have compiled : later.isCompiled := by
    rw [isCompiled, Bool.and_eq_true, Bool.and_eq_true, Bool.and_eq_true]
    exact ⟨⟨⟨keyCondition.isText, filter.isText⟩, condition.isText⟩, projection.isText⟩
  exact {
    isCompiled := compiled
    upholds := texts.upholds within
    keyCondition := keyCondition
    filter := filter
    condition := condition
    projection := projection
    others := others
    compile := if_pos compiled
    isLegible := legible }

/-- A document that is compiled already says what it says. -/
theorem completes_of_isCompiled
    (legible : document.references.IsLegible)
    (compiled : document.isCompiled) :
    document.Completes document := by
  rw [isCompiled, Bool.and_eq_true, Bool.and_eq_true, Bool.and_eq_true] at compiled
  rcases compiled with ⟨⟨⟨keyCondition, filter⟩, condition⟩, projection⟩
  exact completes (.refl document.references) legible (settles_of_isText keyCondition)
    (settles_of_isText filter) (settles_of_isText condition) (settlesPaths_of_isText projection)
    rfl

/-! ## One table for all expressions -/

section

variable {table final : PlaceholderTable}

/-- A condition uses the table once if it is a tree, and not at all otherwise. -/
theorem sound_compileCondition
    (sound : table.Sound)
    (field : Option ExpressionField) :
    (compileCondition table field).2.Sound ∧ (compileCondition table field).2.Extends table := by
  match field with
  | none => exact ⟨sound, .refl table⟩
  | some (.compiled text) => exact ⟨sound, .refl table⟩
  | some (.raw condition) =>
      exact ⟨sound.calls [.condition condition], table.extends_calls [.condition condition]⟩

/-- So does a projection. -/
theorem sound_compileProjection
    (sound : table.Sound)
    (field : Option ProjectionField) :
    (compileProjection table field).2.Sound ∧ (compileProjection table field).2.Extends table := by
  match field with
  | none => exact ⟨sound, .refl table⟩
  | some (.compiled text) => exact ⟨sound, .refl table⟩
  | some (.raw entries) =>
      exact ⟨sound.calls [.projection entries], table.extends_calls [.projection entries]⟩

/-- A condition is settled by its text, whatever the table is used for afterwards. -/
theorem settles_compileCondition
    {field : Option ExpressionField}
    (sound : final.Sound)
    (explains : later.references = final.references)
    (extension : final.Extends (compileCondition table field).2) :
    later.Settles field (compileCondition table field).1 := by
  match field with
  | none => exact .absent
  | some (.compiled text) => exact .text text
  | some (.raw condition) =>
      refine .tree fun valid bounded => ?_
      have read := sound.condition_render extension bounded
      rw [if_pos valid] at read
      have within : final.references.Within later.references := explains ▸ .refl final.references
      exact References.Within.condition_fst within read

/-- A projection is settled by its text, whatever the table is used for afterwards. -/
theorem settlesPaths_compileProjection
    {field : Option ProjectionField}
    (sound : final.Sound)
    (explains : later.references = final.references)
    (extension : final.Extends (compileProjection table field).2) :
    later.SettlesPaths field (compileProjection table field).1 := by
  match field with
  | none => exact .absent
  | some (.compiled text) => exact .text text
  | some (.raw entries) =>
      rw [compileProjection_raw (.refl _)] at extension
      rw [compileProjection_raw extension]
      by_cases empty : projectedPaths entries = []
      · rw [if_pos (List.isEmpty_iff.mpr empty)]
        exact .blank empty
      · rw [if_neg (fun isEmpty => empty (List.isEmpty_iff.mp isEmpty))]
        refine .names ?_
        have parsed : ∀ path ∈ projectedPaths entries, path.isRooted ∧ path.isBounded := by
          intro path member
          rcases List.mem_map.mp member with ⟨name, -, rfl⟩
          exact ⟨Path.isRooted_parse name, Path.isBounded_parse name⟩
        have explained : (Scope.start later.names later.values).references = final.references :=
          explains
        have read := Scope.projection_spell sound (PlaceholderTable.Extends.knows extension)
          (fun path member => (parsed path member).1) (fun path member => (parsed path member).2)
          empty explained
        exact congrArg Prod.fst read

end

section

variable (document : Document)

/-- The text of the key condition and the placeholders afterwards. -/
def keyed : Option ExpressionField × PlaceholderTable :=
  compileCondition (.seeded document.names document.values) document.keyCondition

/-- The text of the filter and the placeholders afterwards. -/
def filtered : Option ExpressionField × PlaceholderTable :=
  compileCondition document.keyed.2 document.filter

/-- The text of the write condition and the placeholders afterwards. -/
def conditioned : Option ExpressionField × PlaceholderTable :=
  compileCondition document.filtered.2 document.condition

/-- The text of the projection and the placeholders in the end. -/
def projected : Option ProjectionField × PlaceholderTable :=
  compileProjection document.conditioned.2 document.projection

/-- The document with all its expressions as texts. -/
def rendered : Document :=
  { document with
    keyCondition := document.keyed.1
    filter := document.filtered.1
    condition := document.conditioned.1
    projection := document.projected.1
    names := document.projected.2.names.meanings
    values := document.projected.2.values.meanings }

end

/-- Every document with legible placeholders can be rendered. -/
theorem completes_rendered (legible : document.references.IsLegible) :
    document.rendered.Completes document := by
  have started : (PlaceholderTable.seeded document.names document.values).Sound :=
    legible.opening.sound
  -- Each part goes on from the placeholders of the parts before it.
  have keyed : document.keyed.2.Sound ∧ document.keyed.2.Extends (.seeded _ _) :=
    sound_compileCondition started document.keyCondition
  have filtered : document.filtered.2.Sound ∧ document.filtered.2.Extends document.keyed.2 :=
    sound_compileCondition keyed.1 document.filter
  have conditioned :
      document.conditioned.2.Sound ∧ document.conditioned.2.Extends document.filtered.2 :=
    sound_compileCondition filtered.1 document.condition
  have projected :
      document.projected.2.Sound ∧ document.projected.2.Extends document.conditioned.2 :=
    sound_compileProjection conditioned.1 document.projection
  have toFilter := projected.2.trans conditioned.2
  have toKey := toFilter.trans filtered.2
  have within : document.references.Within document.rendered.references := by
    have fresh : (PlaceholderTable.seeded document.names document.values).references =
        document.references :=
      legible.references_seeded
    rw [← fresh]
    exact (toKey.trans keyed.2).within projected.1 started
  exact completes within projected.1.isLegible
    (settles_compileCondition projected.1 rfl toKey)
    (settles_compileCondition projected.1 rfl toFilter)
    (settles_compileCondition projected.1 rfl projected.2)
    (settlesPaths_compileProjection projected.1 rfl (.refl _)) rfl

/-! ## Compiling -/

/-- A key condition that is accepted is compiled as any other condition. -/
theorem compileKeyCondition_eq
    {table : PlaceholderTable}
    {field : Option ExpressionField}
    (accepted : ∀ tree, field = some (.raw tree) → tree.IsKeyCondition) :
    compileKeyCondition table field = .ok (compileCondition table field) := by
  match field with
  | none => rfl
  | some (.compiled text) => rfl
  | some (.raw tree) =>
      have checked := Condition.checkKey_eq_ok_iff.mpr (accepted tree rfl)
      apply @compileKeyCondition_raw table (some tree)
      rintro _ ⟨⟩
      exact checked

/-- A document without a key condition to refuse is compiled. -/
theorem exists_compile_eq_ok
    (legible : document.references.IsLegible)
    (accepted : ∀ tree, document.keyCondition = some (.raw tree) → tree.IsKeyCondition) :
    ∃ later, document.compile = .ok later ∧ later.Completes document := by
  by_cases compiled : document.isCompiled
  · exact ⟨document, if_pos compiled, completes_of_isCompiled legible compiled⟩
  · refine ⟨document.rendered, ?_, completes_rendered legible⟩
    rw [Document.compile, if_neg compiled]
    simp only [compileKeyCondition_eq accepted, ok_bind]
    rfl

/-- A document is not compiled if its key condition is refused. -/
theorem compile_eq_error
    {tree : Condition}
    {fault : KeyConditionFault}
    (posed : document.keyCondition = some (.raw tree))
    (refused : tree.checkKey = .error fault) :
    document.compile = .error fault := by
  have uncompiled : document.isCompiled = false := by
    rw [isCompiled, posed]
    rfl
  have failed : compileKeyCondition
      (PlaceholderTable.seeded document.names document.values) (some (.raw tree)) =
        .error fault := by
    rw [compileKeyCondition, PlaceholderTable.renderKeyCondition, refused]
    rfl
  rw [Document.compile, uncompiled, if_neg Bool.false_ne_true, posed]
  simp only [failed]
  rfl

/-- A document with a key condition outside the language is refused for it. -/
theorem exists_compile_eq_error
    {tree : Condition}
    (posed : document.keyCondition = some (.raw tree))
    (outside : ¬tree.IsKeyCondition) :
    ∃ fault, tree.checkKey = .error fault ∧ document.compile = .error fault := by
  cases checked : tree.checkKey with
  | error fault => exact ⟨fault, rfl, compile_eq_error posed checked⟩
  | ok => exact absurd (Condition.checkKey_eq_ok_iff.mp checked) outside

/-- What compiling can come to. -/
theorem compile_cases (legible : document.references.IsLegible) :
    (∃ later, document.compile = .ok later ∧ later.Completes document) ∨
      ∃ tree fault,
        document.keyCondition = some (.raw tree) ∧ ¬tree.IsKeyCondition ∧
          tree.checkKey = .error fault ∧ document.compile = .error fault := by
  by_cases accepted : ∀ tree, document.keyCondition = some (.raw tree) → tree.IsKeyCondition
  · exact .inl (exists_compile_eq_ok legible accepted)
  · simp only [not_forall] at accepted
    rcases accepted with ⟨tree, posed, outside⟩
    rcases exists_compile_eq_error posed outside with ⟨fault, refused, failed⟩
    exact .inr ⟨tree, fault, posed, outside, refused, failed⟩

theorem completes_of_compile
    (legible : document.references.IsLegible)
    (compiled : document.compile = .ok later) :
    later.Completes document := by
  rcases compile_cases legible with ⟨found, done, completes⟩ | ⟨_, _, _, _, _, failed⟩
  · cases done.symm.trans compiled
    exact completes
  · cases failed.symm.trans compiled

/-! ## Documents that are used again -/

/-- An edit that leaves texts and placeholders alone keeps what the document says. -/
theorem KeepsTexts.upholds_edited
    (texts : later.KeepsTexts document)
    (names : later.names = document.names)
    (values : later.values = document.values)
    (legible : document.references.IsLegible) :
    later.Upholds document ∧ later.references.IsLegible := by
  have same : later.references = document.references := congrArg₂ References.mk names values
  constructor
  · apply texts.upholds
    rw [same]
    exact .refl document.references
  · rw [same]
    exact legible

/-- A request that is made from a document keeps what the document says, as does one
that cannot be made. -/
theorem upholds_compileTo
    {α : Type}
    (legible : document.references.IsLegible)
    (make : Document → Except RequestFault α) :
    (document.compileTo make).2.Upholds document ∧
      (document.compileTo make).2.references.IsLegible := by
  rw [compileTo]
  cases compiled : document.compile with
  | error fault => exact ⟨.refl document, legible⟩
  | ok later =>
      have done := completes_of_compile legible compiled
      dsimp only
      cases make later <;> exact ⟨done.upholds, done.isLegible⟩

/-- Whatever becomes of a document, it says what it said. -/
theorem Becomes.upholds
    (becomes : document.Becomes later)
    (legible : document.references.IsLegible) :
    later.Upholds document ∧ later.references.IsLegible := by
  induction becomes with
  | start => exact ⟨.refl document, legible⟩
  | edit before texts names values ih =>
      have step := texts.upholds_edited names values ih.2
      exact ⟨step.1.trans ih.1, step.2⟩
  | request before make ih =>
      have step := upholds_compileTo ih.2 make
      exact ⟨step.1.trans ih.1, step.2⟩

/-- Compiling succeeds unless there is a key condition outside the language, which is
then named and nothing has changed.  Otherwise all expressions are texts, with the
placeholders that the document had and perhaps more: the texts that were there stay and
are read as before, each tree became a text that is read as the tree, and to compile
once more changes nothing.  So the document says what it said, however often expressions
are added to it and requests are made from it. -/
theorem compile_keeps_meanings
    (document : Document)
    (legible : document.references.IsLegible) :
    ((∃ later, document.compile = .ok later) ↔
      ∀ tree, document.keyCondition = some (.raw tree) → tree.IsKeyCondition) ∧
    (∀ fault, document.compile = .error fault →
      (∃ tree, document.keyCondition = some (.raw tree) ∧ ¬tree.IsKeyCondition ∧
        tree.checkKey = .error fault) ∧
      ∀ {α : Type} (make : Document → Except RequestFault α),
        document.compileTo make = (.error (.invalidKeyCondition fault), document)) ∧
    (∀ later, document.compile = .ok later → later.Completes document) ∧
    ∀ later, document.Becomes later → later.Upholds document ∧ later.references.IsLegible := by
  refine ⟨⟨?_, ?_⟩, ?_, fun _ => completes_of_compile legible, fun _ becomes => ?_⟩
  · rintro ⟨later, compiled⟩ tree posed
    by_contra outside
    rcases exists_compile_eq_error posed outside with ⟨fault, -, failed⟩
    cases failed.symm.trans compiled
  · intro accepted
    rcases exists_compile_eq_ok legible accepted with ⟨later, compiled, -⟩
    exact ⟨later, compiled⟩
  · intro fault failed
    rcases compile_cases legible with ⟨_, done, -⟩ | ⟨tree, _, posed, outside, refused, found⟩
    · cases done.symm.trans failed
    · cases found.symm.trans failed
      refine ⟨⟨tree, posed, outside, refused⟩, fun make => ?_⟩
      rw [compileTo, failed]
  · exact becomes.upholds legible

/-- A key condition and names that are added beside a filter share its placeholders and
pass over a number that is taken. -/
theorem compile_keeps_meanings_thread :
    let views : Operand := .path ⟨[.attribute "Views"]⟩
    let document : Document :=
      { Document.ofTable "Thread" with
        keyCondition := some (.raw (.joined .and
          (.compare (.path ⟨[.attribute "ForumName"]⟩) .equal (.value (.string "S3")))
          (.compare views .greaterOrEqual (.value (.number "10")))))
        filter := some (.compiled "(#n1 > :v0)")
        projection := some (.raw ["Views, Replies[0]"])
        names := .ofList [("#n1", "Views")]
        values := .ofList [(":v0", .number "10")] }
    document.references.IsLegible ∧
      ∃ later, document.compile = .ok later ∧ later.Completes document ∧
        later.keyCondition = some (.compiled "((#n0 = :v1) AND (#n1 >= :v0))") ∧
        later.filter = some (.compiled "(#n1 > :v0)") ∧
        later.projection = some (.compiled "#n1,#n2[0]") ∧
        later.Reads "(#n1 > :v0)" (.compare views .greater (.value (.number "10"))) := by
  intro views document
  have legible : document.references.IsLegible :=
    ⟨NameMap.nodup_map_snd_toList_iff.mp (by decide +kernel),
      NameMap.nodup_map_snd_toList_iff.mp (by decide +kernel),
      by decide +kernel, by decide +kernel⟩
  have compiled : document.compile = .ok document.rendered := by decide +kernel
  have completes := (compile_keeps_meanings document legible).2.2.1 _ compiled
  have read : document.Reads "(#n1 > :v0)" (.compare views .greater (.value (.number "10"))) := by
    unfold Reads
    decide +kernel
  exact ⟨legible, _, compiled, completes, by decide +kernel, by decide +kernel,
    by decide +kernel, completes.upholds.conditions _ _ read⟩

end Document

end ItemTable
