import ItemTable.Proofs.KeyCondition.Clauses

/-!
# Key conditions as conditions

A key condition is a conjunction of clauses.  It selects the part of a table that
its clauses ask for, and that part holds the items of which the key condition
holds.  What selects a part of a table is in the language of key conditions and
well formed, so it survives being rendered and read back.
-/

namespace ItemTable

/-! ## Conjunctions -/

namespace Condition

variable {condition : Condition} {leaves : List Condition}

/-- What holds of the leaves and is kept by AND holds of the condition. -/
theorem conjuncts_induction
    {holds : Condition → Prop}
    (ofAnd : ∀ left right, holds left → holds right → holds (.joined .and left right))
    (parts : condition.conjuncts = .ok leaves)
    (ofLeaf : ∀ leaf ∈ leaves, holds leaf) :
    holds condition := by
  induction condition generalizing leaves with
  | joined connective left right leftIH rightIH =>
      cases connective with
      | or => cases parts
      | and =>
          rcases bind_eq_ok.mp parts with ⟨lefts, leftParts, others⟩
          rcases bind_eq_ok.mp others with ⟨rights, rightParts, whole⟩
          cases whole
          apply ofAnd
          · exact leftIH leftParts fun leaf member => ofLeaf leaf (List.mem_append_left _ member)
          · exact rightIH rightParts fun leaf member => ofLeaf leaf (List.mem_append_right _ member)
  | not inner => cases parts
  | compare left operator right =>
      cases parts
      exact ofLeaf _ (List.mem_singleton_self _)
  | between value low high =>
      cases parts
      exact ofLeaf _ (List.mem_singleton_self _)
  | among value candidates =>
      cases parts
      exact ofLeaf _ (List.mem_singleton_self _)
  | test predicate arguments =>
      cases parts
      exact ofLeaf _ (List.mem_singleton_self _)

theorem literals_subset_of_conjuncts
    {leaf : Condition}
    (parts : condition.conjuncts = .ok leaves)
    (member : leaf ∈ leaves) :
    leaf.literals ⊆ condition.literals := by
  induction condition generalizing leaves with
  | joined connective left right leftIH rightIH =>
      cases connective with
      | or => cases parts
      | and =>
          rcases bind_eq_ok.mp parts with ⟨lefts, leftParts, others⟩
          rcases bind_eq_ok.mp others with ⟨rights, rightParts, whole⟩
          cases whole
          rw [literals_joined]
          rcases List.mem_append.mp member with inLeft | inRight
          · exact List.Subset.trans (leftIH leftParts inLeft) (List.subset_append_left _ _)
          · exact List.Subset.trans (rightIH rightParts inRight) (List.subset_append_right _ _)
  | not inner => cases parts
  | _ =>
      cases parts
      rw [List.mem_singleton.mp member]
      exact List.Subset.refl _

theorem holds_of_conjuncts
    {item : Item}
    {value : Condition → Bool}
    (parts : condition.conjuncts = .ok leaves)
    (evaluated : ∀ leaf ∈ leaves, leaf.holds item = .ok (value leaf)) :
    condition.holds item = .ok (leaves.all value) := by
  induction condition generalizing leaves with
  | joined connective left right leftIH rightIH =>
      cases connective with
      | or => cases parts
      | and =>
          rcases bind_eq_ok.mp parts with ⟨lefts, leftParts, others⟩
          rcases bind_eq_ok.mp others with ⟨rights, rightParts, whole⟩
          cases whole
          have first := leftIH leftParts fun leaf member =>
            evaluated leaf (List.mem_append_left _ member)
          have second := rightIH rightParts fun leaf member =>
            evaluated leaf (List.mem_append_right _ member)
          rw [Condition.holds, first, second, ok_bind, List.all_append]
          cases lefts.all value <;> rfl
  | not inner => cases parts
  | _ =>
      cases parts
      rw [List.all_cons, List.all_nil, Bool.and_true]
      exact evaluated _ (List.mem_singleton_self _)

end Condition

namespace KeySchema

variable {schema : KeySchema} {item : Item} {key : PrimaryKey}

/-- Whether a key satisfies the clauses found so far. -/
def satisfies
    (schema : KeySchema)
    (key : PrimaryKey)
    (found : Option AttributeValue × Option SortCondition) :
    Bool :=
  found.1.all (fun value => KeyClause.holds schema key (.partition value)) &&
    found.2.all fun condition => condition.holds key.sort

/-- The clause that is added joins those found so far. -/
theorem addClause_eq_ok
    {found next : Option AttributeValue × Option SortCondition}
    {leaf : Condition}
    (added : schema.addClause found leaf = .ok next) :
    ∃ clause,
      schema.clause leaf = .ok clause ∧
        (∀ value ∈ next.1, value ∈ found.1 ∨ clause = .partition value) ∧
        (found.2.isSome ∨ (∃ condition, clause = .sort condition) → next.2.isSome) ∧
        ∀ key,
          schema.satisfies key next = (schema.satisfies key found && clause.holds schema key) := by
  rcases bind_eq_ok.mp added with ⟨clause, asked, joined⟩
  refine ⟨clause, asked, ?_⟩
  split at joined
  · cases joined
    refine ⟨fun value member => .inr (congrArg KeyClause.partition (Option.some.inj member)),
      ?_, ?_⟩
    · rintro (sorted | ⟨condition, isSort⟩)
      · exact sorted
      · cases isSort
    · intro key
      simp [satisfies, Bool.and_comm]
  · cases joined
    refine ⟨fun value member => .inl member, fun _ => rfl, ?_⟩
    intro key
    simp [satisfies, KeyClause.holds]
  · cases joined

/-- Whether a key satisfies the clause that a condition is. -/
def clauseHolds (schema : KeySchema) (key : PrimaryKey) (leaf : Condition) : Bool :=
  match schema.clause leaf with
  | .ok clause => clause.holds schema key
  | .error _ => false

/-- Clauses that are added one after the other ask for all of them. -/
theorem foldlM_addClause_eq_ok
    {found result : Option AttributeValue × Option SortCondition}
    {leaves : List Condition}
    (folded : leaves.foldlM schema.addClause found = .ok result) :
    (∀ leaf ∈ leaves, ∃ clause, schema.clause leaf = .ok clause) ∧
      (∀ value ∈ result.1,
        value ∈ found.1 ∨ ∃ leaf ∈ leaves, schema.clause leaf = .ok (.partition value)) ∧
      (found.2.isSome ∨
          (∃ leaf ∈ leaves, ∃ condition, schema.clause leaf = .ok (.sort condition)) →
        result.2.isSome) ∧
      ∀ key, schema.satisfies key result =
        (schema.satisfies key found && leaves.all (schema.clauseHolds key)) := by
  induction leaves generalizing found with
  | nil =>
      cases folded
      refine ⟨fun _ absent => absurd absent List.not_mem_nil, fun _ member => .inl member, ?_, ?_⟩
      · rintro (sorted | ⟨_, absent, -⟩)
        · exact sorted
        · cases absent
      · intro key
        rw [List.all_nil, Bool.and_true]
  | cons leaf leaves ih =>
      rw [List.foldlM_cons] at folded
      rcases bind_eq_ok.mp folded with ⟨next, added, others⟩
      rcases addClause_eq_ok added with ⟨clause, asked, nextPartition, nextSort, nextHolds⟩
      rcases ih others with ⟨clauses, partition, sort, holds⟩
      refine ⟨?_, ?_, ?_, ?_⟩
      · rintro other (_ | ⟨_, member⟩)
        · exact ⟨clause, asked⟩
        · exact clauses other member
      · intro value member
        rcases partition value member with inNext | ⟨other, behind, isPartition⟩
        · rcases nextPartition value inNext with inFound | rfl
          · exact .inl inFound
          · exact .inr ⟨leaf, List.mem_cons_self, asked⟩
        · exact .inr ⟨other, List.mem_cons_of_mem _ behind, isPartition⟩
      · rintro (sorted | ⟨other, _ | ⟨_, behind⟩, condition, isSort⟩)
        · exact sort (.inl (nextSort (.inl sorted)))
        · rw [asked] at isSort
          exact sort (.inl (nextSort (.inr ⟨condition, Except.ok.inj isSort⟩)))
        · exact sort (.inr ⟨other, behind, condition, isSort⟩)
      · intro key
        rw [holds, nextHolds, List.all_cons, clauseHolds, asked, Bool.and_assoc]

/-- A partition clause compares with a literal of the kind of the partition key. -/
theorem partition_of_clause
    {leaf : Condition}
    {value : AttributeValue}
    (asked : schema.clause leaf = .ok (.partition value)) :
    ∃ literal, KeyValue.ofValue? schema.partition.kind value = some literal := by
  have ofComparison {place : Path} {operator : Comparison} {other : AttributeValue}
      (compared : schema.comparisonClause place operator other = .ok (.partition value)) :
      ∃ literal, KeyValue.ofValue? schema.partition.kind value = some literal := by
    rcases bind_eq_ok.mp compared with ⟨name, named, ofName⟩
    split at ofName
    · split at ofName
      · rcases bind_eq_ok.mp ofName with ⟨literal, typed, isClause⟩
        cases isClause
        exact ⟨literal, literal_eq_ok typed⟩
      · cases ofName
    · rcases bind_eq_ok.mp ofName with ⟨member, found, ofMember⟩
      rcases bind_eq_ok.mp ofMember with ⟨literal, typed, ofLiteral⟩
      rcases bind_eq_ok.mp ofLiteral with ⟨condition, compared, isClause⟩
      cases isClause
  unfold KeySchema.clause at asked
  split at asked
  · exact ofComparison asked
  · exact ofComparison asked
  · cases asked
  · rcases bind_eq_ok.mp asked with ⟨name, named, ofName⟩
    rcases bind_eq_ok.mp ofName with ⟨member, found, ofMember⟩
    rcases bind_eq_ok.mp ofMember with ⟨lowKey, lowTyped, ofLow⟩
    rcases bind_eq_ok.mp ofLow with ⟨highKey, highTyped, ofHigh⟩
    split at ofHigh <;> cases ofHigh
  · cases asked
  · rcases bind_eq_ok.mp asked with ⟨name, named, ofName⟩
    rcases bind_eq_ok.mp ofName with ⟨member, found, ofMember⟩
    rcases prefixClause_eq_ok ofMember with ⟨literal, startKind, isSort⟩
    cases isSort
  all_goals cases asked

/-- A selection is made of clauses, and asks for all of them. -/
theorem selection_eq_ok
    {condition : Condition}
    {selection : KeySelection}
    (selected : schema.selection condition = .ok selection) :
    ∃ leaves literal,
      condition.conjuncts = .ok leaves ∧
        (∀ leaf ∈ leaves, ∃ clause,
          schema.clause leaf = .ok clause ∧
            ((∃ sort, clause = .sort sort) → selection.sort.isSome)) ∧
        KeyValue.ofValue? schema.partition.kind selection.partition = some literal ∧
        ∀ key : PrimaryKey,
          ((key.partition.order literal).isEq &&
              selection.sort.all fun sort => sort.holds key.sort) =
            leaves.all (schema.clauseHolds key) := by
  rcases bind_eq_ok.mp selected with ⟨leaves, parts, folding⟩
  rcases bind_eq_ok.mp folding with ⟨⟨partition, sort⟩, folded, isSelection⟩
  rcases foldlM_addClause_eq_ok folded with ⟨clauses, fromClause, sorted, holds⟩
  cases partition with
  | none => cases isSelection
  | some value =>
      cases isSelection
      rcases fromClause value rfl with absent | ⟨leaf, member, asked⟩
      · cases absent
      · rcases partition_of_clause asked with ⟨literal, ofKind⟩
        refine ⟨leaves, literal, parts, ?_, ofKind, ?_⟩
        · intro other behind
          rcases clauses other behind with ⟨clause, isClause⟩
          refine ⟨clause, isClause, ?_⟩
          rintro ⟨asking, rfl⟩
          exact sorted (.inr ⟨other, behind, asking, isClause⟩)
        · intro key
          have whole := holds key
          simp only [satisfies, KeyClause.holds, Option.all_some, Option.all_none, ofKind,
            Bool.and_self, Bool.true_and] at whole
          exact whole

/-- A key condition holds of an item exactly if the key of the item lies in the part
that the condition selects, and its evaluation does not fail. -/
theorem selection_holds
    {condition : Condition}
    {selection : KeySelection}
    {value : KeyValue}
    (selected : schema.selection condition = .ok selection)
    (typed : schema.partition.keyValue selection.partition = .ok value)
    (keyed : schema.primaryKey item = .ok key)
    (partitionComparable : key.partition.isComparable)
    (sortComparable : selection.sort.isSome → key.sort.isComparable)
    (literals : condition.IsComparable) :
    condition.holds item =
      .ok ((key.partition.order value).isEq &&
        selection.sort.all fun sort => sort.holds key.sort) := by
  rcases selection_eq_ok selected with ⟨leaves, literal, parts, clauses, ofKind, holds⟩
  have same : literal = value := by
    rw [KeyAttribute.keyValue_eq_ok, ofKind] at typed
    exact Option.some.inj typed
  rw [← same, holds key]
  apply Condition.holds_of_conjuncts parts
  intro leaf member
  rcases clauses leaf member with ⟨clause, asked, sorted⟩
  have comparable : clause.isComparable key := by
    cases clause with
    | partition literal => exact partitionComparable
    | sort condition => exact sortComparable (sorted ⟨condition, rfl⟩)
  rw [clauseHolds, asked]
  apply clause_holds keyed comparable _ asked
  intro text isLiteral
  exact literals text (Condition.literals_subset_of_conjuncts parts member isLiteral)

/-! ## The form of key conditions -/

/-- A clause can be rendered and read back as a key condition. -/
theorem form_of_clause
    {leaf : Condition}
    {clause : KeyClause}
    (asked : schema.clause leaf = .ok clause) :
    leaf.checkKey = .ok () ∧ leaf.isWellFormed ∧ leaf.isBounded := by
  have ofPlace {place : Path} {name : String} (named : place.keyName = .ok name) :
      place.isTopLevel ∧ place.isRooted ∧ place.isBounded := by
    rw [keyName_eq_ok named]
    exact ⟨rfl, rfl, rfl⟩
  have ofComparison {place : Path} {operator : Comparison} {value : AttributeValue}
      (compared : schema.comparisonClause place operator value = .ok clause) :
      (place.isTopLevel ∧ place.isRooted ∧ place.isBounded) ∧ operator ≠ .notEqual := by
    rcases bind_eq_ok.mp compared with ⟨name, named, ofName⟩
    refine ⟨ofPlace named, ?_⟩
    rintro rfl
    split at ofName
    · split at ofName
      · contradiction
      · cases ofName
    · rcases bind_eq_ok.mp ofName with ⟨member, found, ofMember⟩
      rcases bind_eq_ok.mp ofMember with ⟨literal, typed, ofLiteral⟩
      cases ofLiteral
  unfold KeySchema.clause at asked
  split at asked
  · rcases ofComparison asked with ⟨⟨isTopLevel, isRooted, isBounded⟩, operator⟩
    refine ⟨?_, ?_, ?_⟩
    · simp [Condition.checkKey, operator, Operand.checkKey, isTopLevel, ok_bind]
    · simp [Condition.isWellFormed, Operand.isWellFormed, Operand.path?, isRooted]
    · simp [Condition.isBounded, Condition.operands, Operand.path?, isBounded]
  · rename_i operator place
    rcases ofComparison asked with ⟨⟨isTopLevel, isRooted, isBounded⟩, flipped⟩
    have notNotEqual : operator ≠ .notEqual := by
      rintro rfl
      exact flipped rfl
    refine ⟨?_, ?_, ?_⟩
    · simp [Condition.checkKey, notNotEqual, Operand.checkKey, isTopLevel, ok_bind]
    · simp [Condition.isWellFormed, Operand.isWellFormed, Operand.path?, isRooted]
    · simp [Condition.isBounded, Condition.operands, Operand.path?, isBounded]
  · cases asked
  · rcases bind_eq_ok.mp asked with ⟨name, named, -⟩
    rcases ofPlace named with ⟨isTopLevel, isRooted, isBounded⟩
    refine ⟨?_, ?_, ?_⟩
    · simp [Condition.checkKey, Operand.checkKey, isTopLevel, ok_bind]
    · simp [Condition.isWellFormed, Operand.isWellFormed, Operand.path?, isRooted]
    · simp [Condition.isBounded, Condition.operands, Operand.path?, isBounded]
  · cases asked
  · rename_i place start
    rcases bind_eq_ok.mp asked with ⟨name, named, -⟩
    rcases ofPlace named with ⟨isTopLevel, isRooted, isBounded⟩
    refine ⟨?_, ?_, ?_⟩
    · have checked : (Operand.path place).checkKey = .ok () := if_pos isTopLevel
      change (do (Operand.path place).checkKey; (Operand.value start).checkKey; pure ()) = _
      rw [checked]
      rfl
    · simp [Condition.isWellFormed, Operand.isWellFormed, Operand.path?, isRooted,
        Predicate.accepts, Predicate.arity]
    · simp [Condition.isBounded, Condition.operands, Operand.path?, isBounded]
  all_goals cases asked

/-- What selects a part of a table can be rendered and read back as a key condition. -/
theorem form_of_selection
    {condition : Condition}
    {selection : KeySelection}
    (selected : schema.selection condition = .ok selection) :
    condition.checkKey = .ok () ∧ condition.isWellFormed ∧ condition.isBounded := by
  rcases selection_eq_ok selected with ⟨leaves, literal, parts, clauses, -, -⟩
  refine
    @Condition.conjuncts_induction condition leaves
      (fun part => part.checkKey = .ok () ∧ part.isWellFormed ∧ part.isBounded) ?_ parts ?_
  · rintro left right ⟨leftKey, leftValid, leftBounded⟩ ⟨rightKey, rightValid, rightBounded⟩
    refine ⟨?_, ?_, ?_⟩
    · rw [Condition.checkKey, leftKey, ok_bind, rightKey]
    · rw [Condition.isWellFormed, leftValid, rightValid]
      rfl
    · rw [Condition.isBounded, Condition.operands, List.all_append, Bool.and_eq_true]
      exact ⟨leftBounded, rightBounded⟩
  · intro leaf member
    rcases clauses leaf member with ⟨clause, asked, -⟩
    exact form_of_clause asked

end KeySchema

end ItemTable
