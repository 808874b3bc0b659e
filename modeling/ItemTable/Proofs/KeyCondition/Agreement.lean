import ItemTable.Proofs.KeyCondition.Evaluation
import ItemTable.Proofs.Storage.View

/-!
# Queries agree with filters

A key condition has two readings.  A query takes it apart, and asks the order of
keys about the parts; a filter evaluates it on the item like any other condition.
The readings agree on every item that has the key attributes, whichever side the
literals stand on and however the clauses are nested, as long as the texts of
numbers that meet in a comparison denote numbers.
-/

namespace ItemTable

/-- What a query selects by a key condition is what the condition holds of, and the
condition can be evaluated there.  Of the numbers, only those that are compared have
to denote one: a condition on the partition key alone does not look at the sort key. -/
theorem selection_agrees_with_evaluation
    {schema : KeySchema}
    {condition : Condition}
    {selection : KeySelection}
    {item : Item}
    {key : PrimaryKey}
    (selected : schema.selection condition = .ok selection)
    (keyed : schema.primaryKey item = .ok key)
    (literals : condition.IsComparable)
    (partitionComparable : key.partition.isComparable)
    (sortComparable : selection.sort.isSome → key.sort.isComparable) :
    ∃ value answer,
      schema.partition.keyValue selection.partition = .ok value ∧
        condition.holds item = .ok answer ∧
        (answer = true ↔
          key.partition.order value = .eq ∧
            ∀ sort ∈ selection.sort, sort.holds key.sort = true) ∧
        Storage.isSelected schema (some value) selection.sort item = answer := by
  rcases KeySchema.selection_eq_ok selected with ⟨-, value, -, -, ofKind, -⟩
  have typed := KeyAttribute.keyValue_eq_ok.mpr ofKind
  have evaluated :=
    KeySchema.selection_holds selected typed keyed partitionComparable sortComparable literals
  refine ⟨value, _, typed, evaluated, ?_, Storage.isSelected_of_primaryKey keyed _ _⟩
  rw [Bool.and_eq_true, Ordering.isEq_iff_eq_eq, Option.all_eq_true]
  exact Iff.rfl

/-- Literals on the left, the sort key first: the pages of an author up to the tenth,
by the number of the page and not by its text. -/
theorem selection_agrees_with_evaluation_pages :
    let schema : KeySchema := ⟨⟨"author", .string⟩, some ⟨"page", .number⟩⟩
    let condition : Condition :=
      .and
        (.compare (.value (.number "1e1")) .greaterOrEqual (.path ⟨[.attribute "page"]⟩))
        (.compare (.value (.string "a")) .equal (.path ⟨[.attribute "author"]⟩))
    let note : Item :=
      .ofList [("author", .string "a"), ("page", .number "9.50"), ("text", .string "x")]
    schema.selection condition = .ok ⟨.string "a", some (.lessOrEqual (.number "1e1"))⟩ ∧
      ∃ value answer,
        schema.partition.keyValue (.string "a") = .ok value ∧
          condition.holds note = .ok answer ∧
          (answer = true ↔
            (KeyValue.string "a").order value = .eq ∧
              ∀ sort ∈ some (SortCondition.lessOrEqual (.number "1e1")),
                sort.holds (.number "9.50") = true) ∧
          Storage.isSelected schema (some value) (some (.lessOrEqual (.number "1e1"))) note =
            answer := by
  intro schema condition note
  have selected :
      schema.selection condition = .ok ⟨.string "a", some (.lessOrEqual (.number "1e1"))⟩ :=
    rfl
  have keyed : schema.primaryKey note = .ok ⟨.string "a", .number "9.50"⟩ := rfl
  have literals : condition.IsComparable := by
    intro text literal
    change AttributeValue.number text ∈ [.number "1e1", .string "a"] at literal
    rcases literal with _ | ⟨_, _ | ⟨_, ⟨⟩⟩⟩
    decide +kernel
  refine ⟨selected, ?_⟩
  apply selection_agrees_with_evaluation selected keyed literals rfl
  intro _
  decide +kernel

end ItemTable
