import ItemTable.Proofs.KeyCondition.Evaluation
import ItemTable.Proofs.KeyMap

/-!
# How key conditions are written

A key condition asks for an equality of the partition key and for one thing at most of the
sort key.  These may be written in any order and joined in any groups, and a comparison with
either side first: what is selected is the same, and it is selected exactly if nothing else
is asked.  Whatever selects a part of a table can be rendered as a key condition.
-/

namespace ItemTable

/-! ## Arrangements -/

namespace Condition

/-- The conditions that AND joins, from left to right, of whatever form they are. -/
def conjoined : Condition → List Condition
  | joined .and left right => left.conjoined ++ right.conjoined
  | condition => [condition]

/-- The second condition joins with AND what the first one joins, in another order or in
other groups. -/
inductive Rearranged : Condition → Condition → Prop
  | refl (condition : Condition) : Rearranged condition condition
  | symm
      {first second : Condition}
      (rearranged : Rearranged first second) :
      Rearranged second first
  | trans
      {first second third : Condition}
      (once : Rearranged first second)
      (again : Rearranged second third) :
      Rearranged first third
  | swap (left right : Condition) : Rearranged (joined .and left right) (joined .and right left)
  | regroup (first second third : Condition) :
      Rearranged
        (joined .and (joined .and first second) third)
        (joined .and first (joined .and second third))
  | within
      {left right other another : Condition}
      (ofLeft : Rearranged left other)
      (ofRight : Rearranged right another) :
      Rearranged (joined .and left right) (joined .and other another)

theorem Rearranged.perm
    {first second : Condition}
    (rearranged : first.Rearranged second) :
    first.conjoined.Perm second.conjoined := by
  induction rearranged with
  | refl condition => exact .refl _
  | symm _ ih => exact ih.symm
  | trans _ _ onceIH againIH => exact onceIH.trans againIH
  | swap left right => exact List.perm_append_comm
  | regroup first second third =>
      simp only [conjoined, List.append_assoc]
      exact .refl _
  | within _ _ leftIH rightIH => exact leftIH.append rightIH

variable {condition : Condition} {leaves : List Condition}

theorem eq_conjoined_of_conjuncts (parts : condition.conjuncts = .ok leaves) :
    leaves = condition.conjoined := by
  induction condition generalizing leaves with
  | joined connective left right leftIH rightIH =>
      cases connective with
      | or => cases parts
      | and =>
          rcases bind_eq_ok.mp parts with ⟨lefts, leftParts, others⟩
          rcases bind_eq_ok.mp others with ⟨rights, rightParts, ⟨⟩⟩
          rw [leftIH leftParts, rightIH rightParts, conjoined]
  | not inner => cases parts
  | _ =>
      cases parts
      rfl

/-- Conditions that are each a conjunct of their own are the conjuncts. -/
theorem conjuncts_eq_conjoined
    (single : ∀ leaf ∈ condition.conjoined, leaf.conjuncts = .ok [leaf]) :
    condition.conjuncts = .ok condition.conjoined := by
  induction condition with
  | joined connective left right leftIH rightIH =>
      cases connective with
      | or => exact single _ (List.mem_singleton_self _)
      | and =>
          have lefts := leftIH fun leaf member => single leaf (List.mem_append_left _ member)
          have rights := rightIH fun leaf member => single leaf (List.mem_append_right _ member)
          rw [conjuncts, lefts, rights]
          rfl
  | _ => exact single _ (List.mem_singleton_self _)

end Condition

/-! ## What a clause is -/

/-- What a comparison other than an inequality asks of a sort key. -/
inductive Comparison.Asks (key : KeyValue) : Comparison → SortCondition → Prop
  | equal : Asks key .equal (.equal key)
  | less : Asks key .less (.less key)
  | lessOrEqual : Asks key .lessOrEqual (.lessOrEqual key)
  | greater : Asks key .greater (.greater key)
  | greaterOrEqual : Asks key .greaterOrEqual (.greaterOrEqual key)

/-- A condition compares the attribute with a literal of its kind, from either side; the
operator is the one between the attribute and the literal. -/
inductive KeyAttribute.IsCompared
    (member : KeyAttribute)
    (operator : Comparison)
    (value : AttributeValue)
    (key : KeyValue) :
    Condition → Prop
  | before (typed : KeyValue.ofValue? member.kind value = some key) :
      IsCompared member operator value key
        (.compare (.path ⟨[.attribute member.name]⟩) operator (.value value))
  | behind
      {flipped : Comparison}
      (typed : KeyValue.ofValue? member.kind value = some key)
      (isFlipped : flipped.flip = operator) :
      IsCompared member operator value key
        (.compare (.value value) flipped (.path ⟨[.attribute member.name]⟩))

/-- A condition is a comparison, a range or a prefix test of the sort key, with literals of
its kind, that asks for what is given. -/
inductive KeyAttribute.IsSortClause (member : KeyAttribute) : SortCondition → Condition → Prop
  | comparison
      {leaf : Condition}
      {operator : Comparison}
      {value : AttributeValue}
      {key : KeyValue}
      {asked : SortCondition}
      (compared : member.IsCompared operator value key leaf)
      (asks : operator.Asks key asked) :
      IsSortClause member asked leaf
  | range
      {low high : AttributeValue}
      {lowKey highKey : KeyValue}
      (lowTyped : KeyValue.ofValue? member.kind low = some lowKey)
      (highTyped : KeyValue.ofValue? member.kind high = some highKey)
      (ordered : lowKey.order highKey ≠ .gt) :
      IsSortClause member (.between lowKey highKey)
        (.between (.path ⟨[.attribute member.name]⟩) (.value low) (.value high))
  | start
      {start : AttributeValue}
      {key : KeyValue}
      (typed : KeyValue.ofValue? member.kind start = some key)
      (isText : (∃ text, start = .string text) ∨ ∃ bytes, start = .binary bytes) :
      IsSortClause member (.beginsWith key)
        (.test .beginsWith [.path ⟨[.attribute member.name]⟩, .value start])

theorem SortCondition.ofComparison_eq_ok_iff
    {operator : Comparison}
    {key : KeyValue}
    {asked : SortCondition} :
    ofComparison operator key = .ok asked ↔ operator.Asks key asked := by
  constructor
  · intro compared
    unfold ofComparison at compared
    split at compared <;> cases compared <;> constructor
  · rintro (_ | _ | _ | _ | _) <;> rfl

theorem KeyAttribute.literal_eq_ok_iff
    {member : KeyAttribute}
    {value : AttributeValue}
    {key : KeyValue} :
    member.literal value = .ok key ↔ KeyValue.ofValue? member.kind value = some key := by
  constructor
  · exact KeySchema.literal_eq_ok
  · intro typed
    rw [literal, typed]

namespace KeySchema

variable {schema : KeySchema}

theorem sortNamed_eq_ok_iff
    {name : String}
    {member : KeyAttribute} :
    schema.sortNamed name = .ok member ↔ schema.sort = some member ∧ member.name = name := by
  constructor
  · exact sortNamed_eq_ok
  · rintro ⟨isSort, rfl⟩
    rw [sortNamed, isSort, Option.filter_some, if_pos (beq_self_eq_true _)]

/-- A comparison is a clause about the partition key if it is an equality with a literal of
its kind. -/
theorem comparisonClause_eq_partition_iff
    {place : Path}
    {operator : Comparison}
    {value other : AttributeValue} :
    schema.comparisonClause place operator value = .ok (.partition other) ↔
      place = ⟨[.attribute schema.partition.name]⟩ ∧ operator = .equal ∧ value = other ∧
        ∃ key, KeyValue.ofValue? schema.partition.kind value = some key := by
  constructor
  · intro compared
    rcases bind_eq_ok.mp compared with ⟨name, named, ofName⟩
    split at ofName
    · rename_i isPartition
      subst isPartition
      split at ofName
      · rename_i isEqual
        rcases bind_eq_ok.mp ofName with ⟨key, typed, ⟨⟩⟩
        exact ⟨keyName_eq_ok named, isEqual, rfl, key, literal_eq_ok typed⟩
      · cases ofName
    · rcases bind_eq_ok.mp ofName with ⟨member, _, ofMember⟩
      rcases bind_eq_ok.mp ofMember with ⟨key, _, ofKey⟩
      rcases bind_eq_ok.mp ofKey with ⟨asked, _, ⟨⟩⟩
  · rintro ⟨rfl, rfl, rfl, key, typed⟩
    rw [← KeyAttribute.literal_eq_ok_iff] at typed
    simp [comparisonClause, Path.keyName, ok_bind, typed, pure, Except.pure]

/-- A comparison is a clause about the sort key if it compares it with a literal of its kind,
and not for inequality. -/
theorem comparisonClause_eq_sort_iff
    (distinct : schema.HasDistinctNames)
    {place : Path}
    {operator : Comparison}
    {value : AttributeValue}
    {asked : SortCondition} :
    schema.comparisonClause place operator value = .ok (.sort asked) ↔
      ∃ member key, schema.sort = some member ∧ place = ⟨[.attribute member.name]⟩ ∧
        KeyValue.ofValue? member.kind value = some key ∧ operator.Asks key asked := by
  constructor
  · intro compared
    rcases bind_eq_ok.mp compared with ⟨name, named, ofName⟩
    split at ofName
    · split at ofName
      · rcases bind_eq_ok.mp ofName with ⟨key, _, ⟨⟩⟩
      · cases ofName
    · rcases bind_eq_ok.mp ofName with ⟨member, found, ofMember⟩
      rcases bind_eq_ok.mp ofMember with ⟨key, typed, ofKey⟩
      rcases bind_eq_ok.mp ofKey with ⟨condition, ofComparison, ⟨⟩⟩
      rcases sortNamed_eq_ok found with ⟨isSort, rfl⟩
      exact ⟨member, key, isSort, keyName_eq_ok named, literal_eq_ok typed,
        SortCondition.ofComparison_eq_ok_iff.mp ofComparison⟩
  · rintro ⟨member, key, isSort, rfl, typed, asks⟩
    rw [← KeyAttribute.literal_eq_ok_iff] at typed
    have found := sortNamed_eq_ok_iff.mpr ⟨isSort, rfl⟩
    simp [comparisonClause, Path.keyName, ok_bind, distinct member isSort, found, typed,
      SortCondition.ofComparison_eq_ok_iff.mpr asks, pure, Except.pure]

/-- The clauses about the partition key are the equalities with a literal of its kind. -/
theorem clause_eq_partition_iff
    {leaf : Condition}
    {value : AttributeValue} :
    schema.clause leaf = .ok (.partition value) ↔
      ∃ key, schema.partition.IsCompared .equal value key leaf := by
  constructor
  · intro asked
    unfold KeySchema.clause at asked
    split at asked
    · rcases comparisonClause_eq_partition_iff.mp asked with ⟨rfl, rfl, rfl, key, typed⟩
      exact ⟨key, .before typed⟩
    · rcases comparisonClause_eq_partition_iff.mp asked with ⟨rfl, isFlipped, rfl, key, typed⟩
      exact ⟨key, .behind typed isFlipped⟩
    · cases asked
    · rcases bind_eq_ok.mp asked with ⟨name, _, ofName⟩
      rcases bind_eq_ok.mp ofName with ⟨member, _, ofMember⟩
      rcases bind_eq_ok.mp ofMember with ⟨lowKey, _, ofLow⟩
      rcases bind_eq_ok.mp ofLow with ⟨highKey, _, ofHigh⟩
      split at ofHigh <;> cases ofHigh
    · cases asked
    · rcases bind_eq_ok.mp asked with ⟨name, _, ofName⟩
      rcases bind_eq_ok.mp ofName with ⟨member, _, ofMember⟩
      rcases prefixClause_eq_ok ofMember with ⟨key, _, ⟨⟩⟩
    all_goals cases asked
  · rintro ⟨key, typed | ⟨typed, isFlipped⟩⟩
    · exact comparisonClause_eq_partition_iff.mpr ⟨rfl, rfl, rfl, key, typed⟩
    · exact comparisonClause_eq_partition_iff.mpr ⟨rfl, isFlipped, rfl, key, typed⟩

/-- The clauses about the sort key are its comparisons, ranges and prefix tests. -/
theorem clause_eq_sort_iff
    (distinct : schema.HasDistinctNames)
    {leaf : Condition}
    {asked : SortCondition} :
    schema.clause leaf = .ok (.sort asked) ↔
      ∃ member, schema.sort = some member ∧ member.IsSortClause asked leaf := by
  constructor
  · intro isClause
    unfold KeySchema.clause at isClause
    split at isClause
    · rcases (comparisonClause_eq_sort_iff distinct).mp isClause with
        ⟨member, key, isSort, rfl, typed, asks⟩
      exact ⟨member, isSort, .comparison (.before typed) asks⟩
    · rcases (comparisonClause_eq_sort_iff distinct).mp isClause with
        ⟨member, key, isSort, rfl, typed, asks⟩
      exact ⟨member, isSort, .comparison (.behind typed rfl) asks⟩
    · cases isClause
    · rcases bind_eq_ok.mp isClause with ⟨name, named, ofName⟩
      rcases bind_eq_ok.mp ofName with ⟨member, found, ofMember⟩
      rcases bind_eq_ok.mp ofMember with ⟨lowKey, lowTyped, ofLow⟩
      rcases bind_eq_ok.mp ofLow with ⟨highKey, highTyped, ofHigh⟩
      cases keyName_eq_ok named
      rcases sortNamed_eq_ok found with ⟨isSort, rfl⟩
      split at ofHigh
      · cases ofHigh
      · rename_i ordered
        cases ofHigh
        rw [Ordering.isGT_iff_eq_gt] at ordered
        exact ⟨member, isSort, .range (literal_eq_ok lowTyped) (literal_eq_ok highTyped) ordered⟩
    · cases isClause
    · rename_i place start
      rcases bind_eq_ok.mp isClause with ⟨name, named, ofName⟩
      rcases bind_eq_ok.mp ofName with ⟨member, found, ofMember⟩
      cases keyName_eq_ok named
      rcases sortNamed_eq_ok found with ⟨isSort, rfl⟩
      rcases prefixClause_eq_ok ofMember with ⟨key, typed, ⟨⟩⟩
      refine ⟨member, isSort, .start typed ?_⟩
      split at ofMember
      · exact .inl ⟨_, rfl⟩
      · exact .inr ⟨_, rfl⟩
      · cases ofMember
    all_goals cases isClause
  · rintro ⟨member, isSort, isClause⟩
    have found := sortNamed_eq_ok_iff.mpr ⟨isSort, rfl⟩
    cases isClause with
    | comparison compared asks =>
        cases compared with
        | before typed =>
            exact (comparisonClause_eq_sort_iff distinct).mpr ⟨member, _, isSort, rfl, typed, asks⟩
        | behind typed isFlipped =>
            subst isFlipped
            exact (comparisonClause_eq_sort_iff distinct).mpr ⟨member, _, isSort, rfl, typed, asks⟩
    | range lowTyped highTyped ordered =>
        rw [← KeyAttribute.literal_eq_ok_iff] at lowTyped highTyped
        simp [KeySchema.clause, Path.keyName, ok_bind, found, lowTyped, highTyped, ordered, pure,
          Except.pure]
    | start typed isText =>
        rw [← KeyAttribute.literal_eq_ok_iff] at typed
        rcases isText with ⟨text, rfl⟩ | ⟨bytes, rfl⟩ <;>
          simp [KeySchema.clause, Path.keyName, ok_bind, found, typed, pure, Except.pure]

/-! ## Clauses in any order -/

/-- The literal with which a condition compares the partition key, if it is such a clause. -/
def partitionOf (schema : KeySchema) (leaf : Condition) : Option AttributeValue :=
  match schema.clause leaf with
  | .ok (.partition value) => some value
  | _ => none

/-- What a condition asks of the sort key, if it is such a clause. -/
def sortOf (schema : KeySchema) (leaf : Condition) : Option SortCondition :=
  match schema.clause leaf with
  | .ok (.sort asked) => some asked
  | _ => none

theorem partitionOf_eq_some_iff {leaf : Condition} {value : AttributeValue} :
    schema.partitionOf leaf = some value ↔ schema.clause leaf = .ok (.partition value) := by
  unfold partitionOf
  split <;> simp_all

theorem sortOf_eq_some_iff {leaf : Condition} {asked : SortCondition} :
    schema.sortOf leaf = some asked ↔ schema.clause leaf = .ok (.sort asked) := by
  unfold sortOf
  split <;> simp_all

/-- Clauses that are added one after the other fill the two places in their order, and each
place can be filled once. -/
theorem foldlM_addClause_eq_ok_iff
    {found result : Option AttributeValue × Option SortCondition}
    {leaves : List Condition} :
    leaves.foldlM schema.addClause found = .ok result ↔
      (∀ leaf ∈ leaves, ∃ clause, schema.clause leaf = .ok clause) ∧
        found.1.toList ++ leaves.filterMap schema.partitionOf = result.1.toList ∧
        found.2.toList ++ leaves.filterMap schema.sortOf = result.2.toList := by
  induction leaves generalizing found with
  | nil =>
      rw [List.foldlM_nil, List.filterMap_nil, List.filterMap_nil, List.append_nil,
        List.append_nil]
      constructor
      · rintro ⟨⟩
        exact ⟨fun _ absent => absurd absent List.not_mem_nil, rfl, rfl⟩
      · rintro ⟨-, first, second⟩
        rcases found with ⟨_ | _, _ | _⟩ <;> rcases result with ⟨_ | _, _ | _⟩ <;>
          cases first <;> cases second <;> rfl
  | cons leaf leaves ih =>
      rw [List.foldlM_cons, List.forall_mem_cons]
      rcases found with ⟨partition, sort⟩
      cases asked : schema.clause leaf with
      | error fault =>
          have refused : schema.addClause (partition, sort) leaf = .error fault := by
            rw [addClause, asked]
            rfl
          rw [refused]
          constructor
          · rintro ⟨⟩
          · rintro ⟨⟨⟨clause, ⟨⟩⟩, -⟩, -⟩
      | ok clause =>
          cases clause with
          | partition value =>
              cases partition with
              | none =>
                  have added : schema.addClause (none, sort) leaf = .ok (some value, sort) := by
                    rw [addClause, asked]
                    rfl
                  rw [added, ok_bind, ih]
                  simp [partitionOf, sortOf, asked]
              | some earlier =>
                  have refused :
                      schema.addClause (some earlier, sort) leaf = .error .repeatedAttribute := by
                    rw [addClause, asked]
                    rfl
                  rw [refused]
                  constructor
                  · rintro ⟨⟩
                  · rintro ⟨-, twice, -⟩
                    rcases result with ⟨_ | _, _⟩ <;> simp [partitionOf, asked] at twice
          | sort condition =>
              cases sort with
              | none =>
                  have added :
                      schema.addClause (partition, none) leaf =
                        .ok (partition, some condition) := by
                    rw [addClause, asked]
                    cases partition <;> rfl
                  rw [added, ok_bind, ih]
                  simp [partitionOf, sortOf, asked]
              | some earlier =>
                  have refused :
                      schema.addClause (partition, some earlier) leaf =
                        .error .repeatedAttribute := by
                    rw [addClause, asked]
                    cases partition <;> rfl
                  rw [refused]
                  constructor
                  · rintro ⟨⟩
                  · rintro ⟨-, -, twice⟩
                    rcases result with ⟨_, _ | _⟩ <;> simp [sortOf, asked] at twice

/-- Conditions are clauses that ask for what is selected, in whatever order. -/
structure Collects
    (schema : KeySchema)
    (leaves : List Condition)
    (selection : KeySelection) :
    Prop where
  clauses : ∀ leaf ∈ leaves, ∃ clause, schema.clause leaf = .ok clause
  partition : leaves.filterMap schema.partitionOf = [selection.partition]
  sort : leaves.filterMap schema.sortOf = selection.sort.toList

theorem Collects.perm
    {leaves others : List Condition}
    {selection : KeySelection}
    (collects : schema.Collects leaves selection)
    (perm : leaves.Perm others) :
    schema.Collects others selection := by
  constructor
  · intro leaf member
    exact collects.clauses leaf (perm.mem_iff.mpr member)
  · have same := perm.filterMap schema.partitionOf
    rw [collects.partition] at same
    exact List.perm_singleton.mp same.symm
  · have same := perm.filterMap schema.sortOf
    rw [collects.sort] at same
    cases sort : selection.sort with
    | none =>
        rw [sort] at same
        exact List.perm_nil.mp same.symm
    | some asked =>
        rw [sort] at same
        exact List.perm_singleton.mp same.symm

theorem conjuncts_of_clause
    {leaf : Condition}
    {clause : KeyClause}
    (asked : schema.clause leaf = .ok clause) :
    leaf.conjuncts = .ok [leaf] := by
  cases leaf with
  | joined connective left right => cases connective <;> cases asked
  | not inner => cases asked
  | _ => rfl

/-- What is selected is what the conjoined conditions collect. -/
theorem selection_eq_ok_iff
    {condition : Condition}
    {selection : KeySelection} :
    schema.selection condition = .ok selection ↔
      schema.Collects condition.conjoined selection := by
  constructor
  · intro selected
    rcases bind_eq_ok.mp selected with ⟨leaves, parts, folding⟩
    rcases bind_eq_ok.mp folding with ⟨⟨partition, sort⟩, folded, isSelection⟩
    rw [Condition.eq_conjoined_of_conjuncts parts] at folded
    rcases foldlM_addClause_eq_ok_iff.mp folded with ⟨clauses, first, second⟩
    cases partition with
    | none => cases isSelection
    | some value =>
        cases isSelection
        exact ⟨clauses, first, second⟩
  · rintro ⟨clauses, first, second⟩
    have parts : condition.conjuncts = .ok condition.conjoined := by
      apply Condition.conjuncts_eq_conjoined
      intro leaf member
      rcases clauses leaf member with ⟨clause, asked⟩
      exact conjuncts_of_clause asked
    have folded :
        condition.conjoined.foldlM schema.addClause (none, none) =
          .ok (some selection.partition, selection.sort) :=
      foldlM_addClause_eq_ok_iff.mpr ⟨clauses, first, second⟩
    rw [KeySchema.selection, parts, ok_bind, folded]
    rfl

/-- An equality of the partition key, and perhaps one clause about the sort key, that ask
for what is selected. -/
inductive Selects (schema : KeySchema) : List Condition → KeySelection → Prop
  | partition
      {leaf : Condition}
      {value : AttributeValue}
      {key : KeyValue}
      (equals : schema.partition.IsCompared .equal value key leaf) :
      Selects schema [leaf] ⟨value, none⟩
  | both
      {leaf other : Condition}
      {value : AttributeValue}
      {key : KeyValue}
      {member : KeyAttribute}
      {asked : SortCondition}
      (equals : schema.partition.IsCompared .equal value key leaf)
      (isSort : schema.sort = some member)
      (isClause : member.IsSortClause asked other) :
      Selects schema [leaf, other] ⟨value, some asked⟩

theorem Selects.collects
    (distinct : schema.HasDistinctNames)
    {leaves : List Condition}
    {selection : KeySelection}
    (selects : schema.Selects leaves selection) :
    schema.Collects leaves selection := by
  cases selects with
  | partition equals =>
      have first := clause_eq_partition_iff.mpr ⟨_, equals⟩
      constructor <;> simp [partitionOf, sortOf, first]
  | both equals isSort isClause =>
      have first := clause_eq_partition_iff.mpr ⟨_, equals⟩
      have second := (clause_eq_sort_iff distinct).mpr ⟨_, isSort, isClause⟩
      constructor <;> simp [partitionOf, sortOf, first, second]

/-- Conditions that collect a selection are the clauses for it, in some order. -/
theorem Collects.exists_selects
    (distinct : schema.HasDistinctNames)
    {leaves : List Condition}
    {selection : KeySelection}
    (collects : schema.Collects leaves selection) :
    ∃ arranged, arranged.Perm leaves ∧ schema.Selects arranged selection := by
  rcases selection with ⟨value, sort⟩
  rcases List.filterMap_eq_cons_iff.mp collects.partition with
    ⟨front, leaf, back, rfl, noneBefore, isPartition, noneBehind⟩
  rw [partitionOf_eq_some_iff] at isPartition
  rcases clause_eq_partition_iff.mp isPartition with ⟨key, equals⟩
  have sorts : ∀ other ∈ front ++ back, ∃ asked, schema.clause other = .ok (.sort asked) := by
    intro other member
    have elsewhere : other ∈ front ++ leaf :: back := by
      rcases List.mem_append.mp member with inFront | inBack
      · exact List.mem_append_left _ inFront
      · exact List.mem_append_right _ (List.mem_cons_of_mem _ inBack)
    rcases collects.clauses other elsewhere with ⟨clause, asked⟩
    cases clause with
    | sort condition => exact ⟨condition, asked⟩
    | partition literal =>
        rw [← partitionOf_eq_some_iff] at asked
        rcases List.mem_append.mp member with inFront | inBack
        · rw [noneBefore other inFront] at asked
          cases asked
        · rw [List.filterMap_eq_nil_iff.mp noneBehind other inBack] at asked
          cases asked
  have asked : (front ++ back).filterMap schema.sortOf = sort.toList := by
    rw [← collects.sort, List.filterMap_append, List.filterMap_append, List.filterMap_cons]
    simp [sortOf, isPartition]
  refine ⟨leaf :: (front ++ back), List.perm_middle.symm, ?_⟩
  match others : front ++ back, sorts, asked with
  | [], _, asked =>
      cases sort with
      | none => exact .partition equals
      | some condition => cases asked
  | [other], sorts, asked =>
      rcases sorts other (List.mem_singleton_self _) with ⟨condition, isClause⟩
      rcases (clause_eq_sort_iff distinct).mp isClause with ⟨member, isSort, isSortClause⟩
      rw [← sortOf_eq_some_iff] at isClause
      rw [List.filterMap_cons_some isClause, List.filterMap_nil] at asked
      cases sort with
      | none => cases asked
      | some wanted =>
          cases asked
          exact .both equals isSort isSortClause
  | other :: another :: rest, sorts, asked =>
      rcases sorts other List.mem_cons_self with ⟨first, isFirst⟩
      rcases sorts another (List.mem_cons_of_mem _ List.mem_cons_self) with ⟨second, isSecond⟩
      rw [← sortOf_eq_some_iff] at isFirst isSecond
      rw [List.filterMap_cons_some isFirst, List.filterMap_cons_some isSecond] at asked
      cases sort <;> cases asked

/-! ## The arrangement does not matter -/

/-- What selects a part of a table can be rendered as a key condition with any table of
placeholders, and selects the same however its conjunctions are arranged.  A condition
selects a part exactly if it joins an equality of the partition key, and perhaps one clause
about the sort key, with AND. -/
theorem selection_of_arrangement
    {condition : Condition}
    (distinct : schema.HasDistinctNames) :
    (∀ selection, schema.selection condition = .ok selection →
        (∀ table : PlaceholderTable,
          table.renderKeyCondition condition = .ok (table.render condition)) ∧
          ∀ other, condition.Rearranged other → schema.selection other = .ok selection) ∧
      ∀ selection, schema.selection condition = .ok selection ↔
        ∃ leaves, leaves.Perm condition.conjoined ∧ schema.Selects leaves selection := by
  refine ⟨?_, ?_⟩
  · intro selection selected
    refine ⟨?_, ?_⟩
    · intro table
      rw [PlaceholderTable.renderKeyCondition, (form_of_selection selected).1]
      rfl
    · intro other rearranged
      rw [selection_eq_ok_iff] at selected ⊢
      exact selected.perm rearranged.perm
  · intro selection
    rw [selection_eq_ok_iff]
    constructor
    · exact Collects.exists_selects distinct
    · rintro ⟨leaves, perm, selects⟩
      exact (selects.collects distinct).perm perm

/-- The pages from the third to the tenth by an author, whose name stands on the left: the
clauses may be exchanged, but the pages may be asked for once only. -/
theorem selection_of_arrangement_pages :
    let schema : KeySchema := ⟨⟨"author", .string⟩, some ⟨"page", .number⟩⟩
    let author : Condition := .compare (.value (.string "a")) .equal (.path ⟨[.attribute "author"]⟩)
    let pages : Condition :=
      .between (.path ⟨[.attribute "page"]⟩) (.value (.number "3")) (.value (.number "1e1"))
    let selection : KeySelection := ⟨.string "a", some (.between (.number "3") (.number "1e1"))⟩
    schema.HasDistinctNames ∧
      schema.selection (.joined .and author pages) = .ok selection ∧
      schema.selection (.joined .and pages author) = .ok selection ∧
      ¬∃ found, schema.selection (.joined .and pages (.joined .and author pages)) = .ok found := by
  intro schema author pages selection
  have distinct : schema.HasDistinctNames := by
    rintro member ⟨⟩
    decide
  have equals : schema.partition.IsCompared .equal (.string "a") (.string "a") author :=
    .behind rfl rfl
  have isSort : schema.sort = some ⟨"page", .number⟩ := rfl
  have between :
      KeyAttribute.IsSortClause ⟨"page", .number⟩ (.between (.number "3") (.number "1e1")) pages :=
    .range rfl rfl (by decide +kernel)
  have selected : schema.selection (.joined .and author pages) = .ok selection :=
    ((selection_of_arrangement distinct).2 selection).mpr
      ⟨_, .refl _, .both equals isSort between⟩
  refine ⟨distinct, selected, ?_, ?_⟩
  · exact ((selection_of_arrangement distinct).1 selection selected).2 _ (.swap _ _)
  · rintro ⟨found, twice⟩
    rcases ((selection_of_arrangement distinct).2 found).mp twice with ⟨leaves, perm, selects⟩
    have three := perm.length_eq
    cases selects <;> cases three

end KeySchema

end ItemTable
