import ItemTable.Document
import ItemTable.Proofs.Condition.Spelling
import ItemTable.Proofs.Sequencing

/-!
# Compiled reads

The document of a read is compiled once, with its first page, and sent again for
every other page.  Its texts are those of its trees, spelled with the placeholders
of the table that has met all of them, and compiling a document that is compiled
changes nothing.
-/

namespace ItemTable

/-- What the expressions of a read say. -/
structure ReadTerms where
  keyCondition : Option Condition
  filter : Option Condition
  /-- The paths of the projection; none for whole items. -/
  paths : List Path

namespace ReadTerms

/-- The conditions in the order in which they are rendered and read. -/
def conditions (terms : ReadTerms) : List Condition :=
  terms.keyCondition.toList ++ terms.filter.toList

/-- The attribute names of all expressions. -/
def names (terms : ReadTerms) : List String :=
  terms.conditions.flatMap Condition.names ++ terms.paths.flatMap Path.names

/-- The literals of all expressions. -/
def literals (terms : ReadTerms) : List AttributeValue :=
  terms.conditions.flatMap Condition.literals

/-- The placeholders after all expressions have been rendered. -/
def table (terms : ReadTerms) : PlaceholderTable :=
  PlaceholderTable.start.meet terms.names terms.literals

/-- The placeholders after the key condition has been rendered. -/
def keyTable (terms : ReadTerms) : PlaceholderTable :=
  .meet .start (terms.keyCondition.toList.flatMap Condition.names)
    (terms.keyCondition.toList.flatMap Condition.literals)

/-- The placeholders after the filter has been rendered as well. -/
def filterTable (terms : ReadTerms) : PlaceholderTable :=
  terms.keyTable.meet (terms.filter.toList.flatMap Condition.names)
    (terms.filter.toList.flatMap Condition.literals)

theorem table_eq (terms : ReadTerms) :
    terms.table = terms.filterTable.meet (terms.paths.flatMap Path.names) [] := by
  simp only [table, filterTable, keyTable, names, literals, conditions, List.flatMap_append,
    ← PlaceholderTable.meet_append, List.append_nil]

/-- A condition as the text of an expression. -/
def written (terms : ReadTerms) (condition : Condition) : ExpressionField :=
  .compiled (condition.spell terms.table.naming)

/-- The document with the texts of all expressions. -/
def write (terms : ReadTerms) (document : Document) : Document :=
  { document with
    keyCondition := terms.keyCondition.map terms.written
    filter := terms.filter.map terms.written
    projection :=
      if terms.paths.isEmpty then none
      else some (.compiled (Path.spellAll terms.table.naming terms.paths))
    names := terms.table.names.meanings
    values := terms.table.values.meanings }

end ReadTerms

namespace Document

open PlaceholderTable (projectedPaths spells_render spells_renderProjection)

/-! ## One expression -/

section

variable {table later : PlaceholderTable} {condition : Option Condition}

theorem compileCondition_raw
    (extension : later.Extends
      (table.meet (condition.toList.flatMap Condition.names)
        (condition.toList.flatMap Condition.literals))) :
    compileCondition table (condition.map .raw) =
      (condition.map fun tree => ExpressionField.compiled (tree.spell later.naming),
        table.meet (condition.toList.flatMap Condition.names)
          (condition.toList.flatMap Condition.literals)) := by
  cases condition with
  | none => rfl
  | some tree =>
      rw [Option.toList_some, List.flatMap_singleton, List.flatMap_singleton] at extension ⊢
      have spelled := spells_render table tree
      rw [← spelled.table] at extension ⊢
      change (some (ExpressionField.compiled (table.render tree).1), (table.render tree).2) = _
      rw [spelled.text later extension]
      rfl

/-- A key condition is compiled as any other condition. -/
theorem compileKeyCondition_raw
    (accepted : ∀ tree ∈ condition, tree.checkKey = .ok ()) :
    compileKeyCondition table (condition.map .raw) =
      .ok (compileCondition table (condition.map .raw)) := by
  cases condition with
  | none => rfl
  | some tree =>
      change (table.renderKeyCondition tree >>= _) = _
      rw [PlaceholderTable.renderKeyCondition, accepted tree rfl]
      rfl

theorem compileProjection_raw
    {entries : List String}
    (extension : later.Extends
      (table.meet ((projectedPaths entries).flatMap Path.names) [])) :
    compileProjection table (some (.raw entries)) =
      (if (projectedPaths entries).isEmpty then none
        else some (.compiled (Path.spellAll later.naming (projectedPaths entries))),
        table.meet ((projectedPaths entries).flatMap Path.names) []) := by
  have spelled := spells_renderProjection table entries
  have absent := PlaceholderTable.renderProjection_eq_none_iff table entries
  rw [← spelled.table] at extension ⊢
  have text := spelled.text later extension
  change ((table.renderProjection entries).1.map _, (table.renderProjection entries).2) = _
  cases rendered : (table.renderProjection entries).1 with
  | none =>
      rw [absent.mp rendered]
      rfl
  | some spelling =>
      have present : projectedPaths entries ≠ [] := by
        intro empty
        rw [absent.mpr empty] at rendered
        cases rendered
      rw [rendered] at text
      rw [List.isEmpty_eq_false_iff.mpr present, ← text]
      rfl

end

/-! ## Whole documents -/

/-- A document of a read whose expressions are trees. -/
structure Poses (document : Document) (terms : ReadTerms) : Prop where
  keyCondition : document.keyCondition = terms.keyCondition.map .raw
  filter : document.filter = terms.filter.map .raw
  condition : document.condition = none
  projection :
    document.projection = none ∧ terms.paths = [] ∨
      ∃ entries,
        document.projection = some (.raw entries) ∧ terms.paths = projectedPaths entries
  names : document.names = ∅
  values : document.values = ∅

variable {document : Document} {terms : ReadTerms}

/-- A document that has nothing to render is compiled already. -/
theorem Poses.write_of_isCompiled
    (poses : document.Poses terms)
    (compiled : document.isCompiled) :
    terms.write document = document := by
  rcases document with
    ⟨_, _, _, _, keyCondition, filter, _, projection, names, values, _, _, _, _, _, _⟩
  rcases terms with ⟨keyTree, filterTree, paths⟩
  rcases poses with ⟨rfl, rfl, rfl, projected, rfl, rfl⟩
  rcases projected with ⟨rfl, rfl⟩ | ⟨entries, rfl, rfl⟩
  · cases keyTree <;> cases filterTree <;> first | rfl | cases compiled
  · simp [isCompiled, ProjectionField.text?] at compiled

/-- The document of a read is compiled to the texts of its trees. -/
theorem Poses.compile
    (poses : document.Poses terms)
    (accepted : ∀ tree ∈ terms.keyCondition, tree.checkKey = .ok ()) :
    document.compile = .ok (terms.write document) := by
  rw [Document.compile]
  split
  · rename_i compiled
    rw [poses.write_of_isCompiled compiled]
  · have fresh : PlaceholderTable.seeded document.names document.values = .start := by
      rw [poses.names, poses.values]
      rfl
    have toFilter : terms.table.Extends terms.filterTable := by
      rw [terms.table_eq]
      exact terms.filterTable.extends_meet _ _
    have toKey : terms.table.Extends terms.keyTable :=
      toFilter.trans (terms.keyTable.extends_meet _ _)
    have keyText :
        compileKeyCondition .start document.keyCondition =
          .ok ((terms.write document).keyCondition, terms.keyTable) := by
      rw [poses.keyCondition, compileKeyCondition_raw accepted, compileCondition_raw toKey]
      rfl
    have filterText :
        compileCondition terms.keyTable document.filter =
          ((terms.write document).filter, terms.filterTable) := by
      rw [poses.filter, compileCondition_raw toFilter]
      rfl
    have pathText :
        compileProjection terms.filterTable document.projection =
          ((terms.write document).projection, terms.table) := by
      rcases poses.projection with ⟨absent, empty⟩ | ⟨entries, present, paths⟩
      · rw [absent, ReadTerms.write, terms.table_eq, empty]
        rfl
      · have extension := PlaceholderTable.Extends.refl terms.table
        rw [terms.table_eq, paths] at extension
        rw [present, compileProjection_raw extension, ReadTerms.write, terms.table_eq, paths]
    have noText :
        compileCondition terms.filterTable document.condition =
          (document.condition, terms.filterTable) := by
      rw [poses.condition]
      rfl
    simp only [fresh, keyText, ok_bind, filterText, noText, pathText]
    rfl

/-- A document that has been compiled stays as it is. -/
theorem compile_write (unconditional : document.condition = none) :
    (terms.write document).compile = .ok (terms.write document) := by
  have compiled : (terms.write document).isCompiled := by
    rcases terms with ⟨keyTree, filterTree, paths⟩
    rw [isCompiled, isCompiled.isText]
    simp only [ReadTerms.write, unconditional]
    cases keyTree <;> cases filterTree <;> cases paths <;> rfl
  rw [Document.compile, if_pos compiled]

end Document

end ItemTable
