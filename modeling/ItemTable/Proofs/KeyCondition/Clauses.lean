import ItemTable.Condition.Evaluation
import ItemTable.KeyCondition.Language
import ItemTable.KeyCondition.Selection
import ItemTable.Proofs.Condition.Form
import ItemTable.Proofs.KeyOrder
import ItemTable.Proofs.Sequencing

/-!
# Clauses of key conditions

A clause of a key condition can be evaluated on an item like any other condition,
and it asks something of the key of the item.  Both say the same where key values
are ordered as values are compared.  Only texts of numbers can spoil this: a
comparison refuses a text that denotes no number and orders no NaN, while the
order of keys has a place for both.
-/

namespace ItemTable

/-- Whether a text denotes a number that has a place among the others. -/
def Text.denotesNumber (text : String) : Bool :=
  (Binary64.ofText? text).any fun number => !number.isNaN

/-- Whether a key value is ordered as its attribute value is. -/
def KeyValue.isComparable : KeyValue → Bool
  | number text => Text.denotesNumber text
  | _ => true

/-! ## The two orders -/

namespace Binary64

theorem rank_unsignedZero (number : Binary64) :
    number.unsignedZero.rank =
      if number.signed < 0 then number.signed - 1 else number.signed := by
  rcases number with ⟨negative, magnitude⟩
  rw [unsignedZero]
  by_cases isZero : magnitude = 0
  · subst isZero
    cases negative <;> rfl
  · cases negative <;> simp only [isZero, if_false, rank, signed, if_true, Bool.false_eq_true] <;>
      split <;> omega

/-- Apart from NaN, the numeric order and the order of keys agree. -/
theorem compare_rank_unsignedZero (left right : Binary64) :
    compare left.unsignedZero.rank right.unsignedZero.rank =
      compare left.signed right.signed := by
  rw [rank_unsignedZero, rank_unsignedZero]
  rcases Int.lt_trichotomy left.signed right.signed with less | equal | greater
  · rw [Int.compare_eq_lt.mpr less]
    apply Int.compare_eq_lt.mpr
    split <;> split <;> omega
  · rw [equal, Std.ReflOrd.compare_self, Std.ReflOrd.compare_self]
  · rw [Int.compare_eq_gt.mpr greater]
    apply Int.compare_eq_gt.mpr
    split <;> split <;> omega

end Binary64

namespace AttributeValue

theorem compare?_numeric
    {left right : String}
    (leftNumber : Text.denotesNumber left)
    (rightNumber : Text.denotesNumber right) :
    (number left).order? (number right) =
      .ok (some ((KeyValue.number left).order (.number right))) := by
  rcases Option.any_eq_true _ _ |>.mp leftNumber with ⟨first, firstRead, firstOrdered⟩
  rcases Option.any_eq_true _ _ |>.mp rightNumber with ⟨second, secondRead, secondOrdered⟩
  rw [Bool.not_eq_true'] at firstOrdered secondOrdered
  simp only [order?, readNumber, firstRead, secondRead, bind, Except.bind, pure, Except.pure,
    Binary64.compare?, firstOrdered, secondOrdered, Bool.or_self, Bool.false_eq_true, if_false,
    KeyValue.order, KeyValue.numeric, Option.getD_some, Binary64.compare_rank_unsignedZero]

/-- Values of one key kind are ordered as their key values are. -/
theorem order?_of_ofValue?
    {kind : KeyKind}
    {left right : AttributeValue}
    {leftKey rightKey : KeyValue}
    (leftKind : KeyValue.ofValue? kind left = some leftKey)
    (rightKind : KeyValue.ofValue? kind right = some rightKey)
    (leftComparable : leftKey.isComparable)
    (rightComparable : rightKey.isComparable) :
    left.order? right = .ok (some (leftKey.order rightKey)) := by
  cases kind with
  | string =>
      cases left <;> cases leftKind
      cases right <;> cases rightKind
      rfl
  | number =>
      cases left <;> cases leftKind
      cases right <;> cases rightKind
      exact compare?_numeric leftComparable rightComparable
  | binary =>
      cases left <;> cases leftKind
      cases right <;> cases rightKind
      rfl

theorem relates_of_order?
    {left right : AttributeValue}
    {order : Ordering}
    (ordered : left.order? right = .ok (some order))
    (operator : Comparison) :
    left.relates operator right = .ok (operator.holds order) := by
  unfold relates
  rw [ordered]
  rfl

end AttributeValue

/-! ## Clauses -/

theorem Comparison.holds_flip (operator : Comparison) (order : Ordering) :
    operator.flip.holds order = operator.holds order.swap := by
  cases operator <;> cases order <;> rfl

/-- What a comparison asks of a sort key is what it says of the order. -/
theorem SortCondition.holds_ofComparison
    {operator : Comparison}
    {value : KeyValue}
    {condition : SortCondition}
    (asked : ofComparison operator value = .ok condition)
    (key : KeyValue) :
    condition.holds key = operator.holds (key.order value) := by
  unfold ofComparison at asked
  split at asked <;> cases asked <;> simp only [SortCondition.holds, Comparison.holds] <;>
    cases key.order value <;> rfl

/-- Whether a key satisfies a clause. -/
def KeyClause.holds (schema : KeySchema) (key : PrimaryKey) : KeyClause → Bool
  | partition value =>
      match KeyValue.ofValue? schema.partition.kind value with
      | some literal => (key.partition.order literal).isEq
      | none => false
  | sort condition => condition.holds key.sort

/-- Whether the part of a key that a clause asks about has a place in the order of
values. -/
def KeyClause.isComparable (key : PrimaryKey) : KeyClause → Bool
  | partition _ => key.partition.isComparable
  | sort _ => key.sort.isComparable

/-- Whether the literals of a condition have a place in the order of keys. -/
def Condition.IsComparable (condition : Condition) : Prop :=
  ∀ text, .number text ∈ condition.literals → Text.denotesNumber text

/-- Whether the parts of a key have a place in the order of values. -/
def PrimaryKey.isComparable (key : PrimaryKey) : Bool :=
  key.partition.isComparable && key.sort.isComparable

namespace KeySchema

variable {schema : KeySchema} {item : Item} {key : PrimaryKey}

theorem literal_eq_ok
    {member : KeyAttribute}
    {value : AttributeValue}
    {literal : KeyValue}
    (typed : member.literal value = .ok literal) :
    KeyValue.ofValue? member.kind value = some literal := by
  rw [KeyAttribute.literal] at typed
  split at typed
  · rename_i ofKind
    cases typed
    exact ofKind
  · cases typed

theorem isComparable_of_ofValue?
    {kind : KeyKind}
    {value : AttributeValue}
    {literal : KeyValue}
    (ofKind : KeyValue.ofValue? kind value = some literal)
    (comparable : ∀ text, value = .number text → Text.denotesNumber text) :
    literal.isComparable := by
  unfold KeyValue.ofValue? at ofKind
  split at ofKind <;> cases ofKind
  · rfl
  · exact comparable _ rfl
  · rfl

theorem keyName_eq_ok
    {place : Path}
    {name : String}
    (named : place.keyName = .ok name) :
    place = ⟨[.attribute name]⟩ := by
  rcases place with ⟨elements⟩
  rw [Path.keyName] at named
  split at named
  · rename_i found
    cases named
    exact congrArg Path.mk found
  · cases named

theorem sortNamed_eq_ok
    {name : String}
    {member : KeyAttribute}
    (found : schema.sortNamed name = .ok member) :
    schema.sort = some member ∧ member.name = name := by
  rw [sortNamed] at found
  split at found
  · rename_i only
    cases found
    rw [Option.filter_eq_some_iff, beq_iff_eq] at only
    exact only
  · cases found

/-- A key attribute of an item and a literal of its kind, compared as values and as
keys. -/
theorem order?_literal
    {member : KeyAttribute}
    {value : AttributeValue}
    {literal found : KeyValue}
    (keyed : member.Holds item found)
    (comparable : found.isComparable)
    (typed : member.literal value = .ok literal)
    (literals : ∀ text, value = .number text → Text.denotesNumber text) :
    ∃ stored,
      item.resolve? ⟨[.attribute member.name]⟩ = some stored ∧
        KeyValue.ofValue? member.kind stored = some found ∧
        stored.order? value = .ok (some (found.order literal)) ∧
        value.order? stored = .ok (some (literal.order found)) := by
  rcases keyed with ⟨stored, present, storedKind⟩
  have literalKind := literal_eq_ok typed
  have literalComparable := isComparable_of_ofValue? literalKind literals
  refine ⟨stored, ?_, storedKind, ?_, ?_⟩
  · simp [Item.resolve?, AttributeValue.walk?, present]
  · exact AttributeValue.order?_of_ofValue? storedKind literalKind comparable literalComparable
  · exact AttributeValue.order?_of_ofValue? literalKind storedKind literalComparable comparable

/-- A comparison of a key attribute says of an item what its clause says of the
key. -/
theorem comparisonClause_holds
    {place : Path}
    {operator : Comparison}
    {value : AttributeValue}
    {clause : KeyClause}
    (keyed : schema.primaryKey item = .ok key)
    (comparable : clause.isComparable key)
    (literals : ∀ text, value = .number text → Text.denotesNumber text)
    (asked : schema.comparisonClause place operator value = .ok clause) :
    ∃ stored order,
      item.resolve? place = some stored ∧
        stored.order? value = .ok (some order) ∧
        value.order? stored = .ok (some order.swap) ∧
        clause.holds schema key = operator.holds order := by
  have hasKey := primaryKey_eq_ok_iff.mp keyed
  rcases bind_eq_ok.mp asked with ⟨name, named, ofName⟩
  cases keyName_eq_ok named
  split at ofName
  · rename_i isPartition
    subst isPartition
    split at ofName
    · rename_i isEqual
      subst isEqual
      rcases bind_eq_ok.mp ofName with ⟨literal, typed, isClause⟩
      cases isClause
      rcases order?_literal hasKey.1 comparable typed literals with
        ⟨stored, resolved, -, forward, backward⟩
      refine ⟨stored, _, resolved, forward, ?_, ?_⟩
      · rw [backward]
        exact congrArg (fun order => Except.ok (some order)) Std.OrientedCmp.eq_swap
      · rw [KeyClause.holds, literal_eq_ok typed]
        change (key.partition.order literal).isEq = _
        cases key.partition.order literal <;> rfl
    · cases ofName
  · rcases bind_eq_ok.mp ofName with ⟨member, found, ofMember⟩
    rcases bind_eq_ok.mp ofMember with ⟨literal, typed, ofLiteral⟩
    rcases bind_eq_ok.mp ofLiteral with ⟨condition, compared, isClause⟩
    cases isClause
    rcases sortNamed_eq_ok found with ⟨isSort, rfl⟩
    rcases order?_literal (hasKey.sort isSort) comparable typed literals with
      ⟨stored, resolved, -, forward, backward⟩
    refine ⟨stored, _, resolved, forward, ?_, ?_⟩
    · rw [backward]
      exact congrArg (fun order => Except.ok (some order)) Std.OrientedCmp.eq_swap
    · exact SortCondition.holds_ofComparison compared key.sort

/-- A prefix test says of a value what it says of the sort key. -/
theorem beginsWith_of_ofValue?
    {kind : KeyKind}
    {stored start : AttributeValue}
    {found literal : KeyValue}
    (storedKind : KeyValue.ofValue? kind stored = some found)
    (startKind : KeyValue.ofValue? kind start = some literal) :
    stored.beginsWith start = (SortCondition.beginsWith literal).holds found := by
  cases kind <;> cases stored <;> cases storedKind <;> cases start <;> cases startKind <;>
    simp only [AttributeValue.beginsWith, SortCondition.holds]

/-- A prefix test that is a clause tests for a literal of the kind of the sort key. -/
theorem prefixClause_eq_ok
    {member : KeyAttribute}
    {start : AttributeValue}
    {clause : KeyClause}
    (asked :
      (match start with
        | .string _ | .binary _ => do
            return KeyClause.sort (.beginsWith (← member.literal start))
        | _ => Except.error SelectionFault.prefixKind) = .ok clause) :
    ∃ literal,
      KeyValue.ofValue? member.kind start = some literal ∧
        clause = .sort (.beginsWith literal) := by
  split at asked
  · rcases bind_eq_ok.mp asked with ⟨literal, typed, isClause⟩
    cases isClause
    exact ⟨literal, literal_eq_ok typed, rfl⟩
  · rcases bind_eq_ok.mp asked with ⟨literal, typed, isClause⟩
    cases isClause
    exact ⟨literal, literal_eq_ok typed, rfl⟩
  · cases asked

/-- A clause says of an item, as a condition, what it says of the key. -/
theorem clause_holds
    {leaf : Condition}
    {clause : KeyClause}
    (keyed : schema.primaryKey item = .ok key)
    (comparable : clause.isComparable key)
    (literals : leaf.IsComparable)
    (asked : schema.clause leaf = .ok clause) :
    leaf.holds item = .ok (clause.holds schema key) := by
  have hasKey := primaryKey_eq_ok_iff.mp keyed
  unfold KeySchema.clause at asked
  split at asked
  · rename_i place operator value
    rcases comparisonClause_holds keyed comparable
        (fun text isNumber => literals text (by simp [isNumber, Operand.literals])) asked with
      ⟨stored, order, resolved, forward, -, same⟩
    simp only [Condition.holds, Operand.resolve?, resolved, same]
    exact AttributeValue.relates_of_order? forward operator
  · rename_i value operator place
    rcases comparisonClause_holds keyed comparable
        (fun text isNumber => literals text (by simp [isNumber, Operand.literals])) asked with
      ⟨stored, order, resolved, -, backward, same⟩
    simp only [Condition.holds, Operand.resolve?, resolved, same, Comparison.holds_flip]
    exact AttributeValue.relates_of_order? backward operator
  · cases asked
  · rename_i place low high
    rcases bind_eq_ok.mp asked with ⟨name, named, ofName⟩
    rcases bind_eq_ok.mp ofName with ⟨member, found, ofMember⟩
    rcases bind_eq_ok.mp ofMember with ⟨lowKey, lowTyped, ofLow⟩
    rcases bind_eq_ok.mp ofLow with ⟨highKey, highTyped, ofHigh⟩
    cases keyName_eq_ok named
    rcases sortNamed_eq_ok found with ⟨isSort, rfl⟩
    split at ofHigh
    · cases ofHigh
    · cases ofHigh
      rcases order?_literal (hasKey.sort isSort) comparable lowTyped
          (fun text isNumber => literals text (by simp [isNumber, Operand.literals])) with
        ⟨stored, resolved, -, lowOrder, -⟩
      rcases order?_literal (hasKey.sort isSort) comparable highTyped
          (fun text isNumber => literals text (by simp [isNumber, Operand.literals])) with
        ⟨again, resolvedAgain, -, highOrder, -⟩
      rw [resolved] at resolvedAgain
      cases resolvedAgain
      have swap : lowKey.order key.sort = (key.sort.order lowKey).swap :=
        Std.OrientedCmp.eq_swap
      simp only [Condition.holds, Operand.resolve?, resolved,
        AttributeValue.relates_of_order? lowOrder, AttributeValue.relates_of_order? highOrder,
        ok_bind, KeyClause.holds, SortCondition.holds, swap, Comparison.holds]
      cases key.sort.order lowKey <;> cases key.sort.order highKey <;> rfl
  · cases asked
  · rename_i place start
    rcases bind_eq_ok.mp asked with ⟨name, named, ofName⟩
    rcases bind_eq_ok.mp ofName with ⟨member, found, ofMember⟩
    cases keyName_eq_ok named
    rcases sortNamed_eq_ok found with ⟨isSort, rfl⟩
    rcases hasKey.sort isSort with ⟨stored, present, storedKind⟩
    have resolved : item.resolve? ⟨[.attribute member.name]⟩ = some stored := by
      simp [Item.resolve?, AttributeValue.walk?, present]
    rcases prefixClause_eq_ok ofMember with ⟨literal, startKind, rfl⟩
    simp only [Condition.holds, Predicate.holds, List.head?_cons, Option.bind_eq_bind,
      Option.bind_some, Operand.resolve?, resolved, beginsWith_of_ofValue? storedKind startKind]
    rfl
  all_goals cases asked

end KeySchema

end ItemTable
