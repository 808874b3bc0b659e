import ItemTable.Proofs.Expression.Projection

/-!
# Conditions that are made

Conditions are made with constructors, each from the name of a place in items and from
literals, and joined and negated in any nesting.  Whatever the name and the literals are,
an expression can say the condition.
-/

namespace ItemTable

/-- What the constructors speak about: the value at a place, or its size. -/
inductive Operand.IsPlace : Operand → Prop
  | path (name : String) : IsPlace (.path (.parse name))
  | size (name : String) : IsPlace (.size (.parse name))

namespace Condition

/-- Conditions that are made with the constructors; a membership has candidates. -/
inductive Made : Condition → Prop
  | comparison
      {operand : Operand}
      (isPlace : operand.IsPlace)
      (operator : Comparison)
      (value : AttributeValue) :
      Made (ofComparison operand operator value)
  | range
      {operand : Operand}
      (isPlace : operand.IsPlace)
      (low high : AttributeValue) :
      Made (ofRange operand low high)
  | candidates
      {values : List AttributeValue}
      (name : String)
      (nonempty : values ≠ []) :
      Made (ofCandidates (.parse name) values)
  | attributeExists (name : String) :
      Made (ofPredicate .attributeExists (.parse name) none)
  | attributeNotExists (name : String) :
      Made (ofPredicate .attributeNotExists (.parse name) none)
  | attributeType (name kind : String) :
      Made (ofPredicate .attributeType (.parse name) (some (.string kind)))
  | beginsWith (name : String) (value : AttributeValue) :
      Made (ofPredicate .beginsWith (.parse name) (some value))
  | contains (name : String) (value : AttributeValue) :
      Made (ofPredicate .contains (.parse name) (some value))
  | and
      {left right : Condition}
      (madeLeft : left.Made)
      (madeRight : right.Made) :
      Made (left.and right)
  | or
      {left right : Condition}
      (madeLeft : left.Made)
      (madeRight : right.Made) :
      Made (left.or right)
  | not
      {inner : Condition}
      (made : inner.Made) :
      Made (.not inner)

end Condition

/-! ## Form -/

theorem Operand.IsPlace.isWellFormed {operand : Operand} (isPlace : operand.IsPlace) :
    operand.isWellFormed := by
  cases isPlace with
  | path name => exact Path.isRooted_parse name
  | size name => exact Path.isRooted_parse name

theorem Operand.IsPlace.isBounded {operand : Operand} (isPlace : operand.IsPlace) :
    operand.path?.all Path.isBounded := by
  cases isPlace with
  | path name => exact Path.isBounded_parse name
  | size name => exact Path.isBounded_parse name

namespace Condition

variable {condition left right : Condition}

theorem isBounded_joined {connective : Connective} :
    (joined connective left right).isBounded ↔ left.isBounded ∧ right.isBounded := by
  rw [isBounded, operands, List.all_append, Bool.and_eq_true]
  rfl

theorem isBounded_iff :
    condition.isBounded ↔ ∀ operand ∈ condition.operands, operand.path?.all Path.isBounded :=
  List.all_eq_true

/-- A predicate of the value at a place is bounded and, with as many literals as it takes,
well formed. -/
theorem isBounded_ofPredicate
    (predicate : Predicate)
    (name : String)
    (value : Option AttributeValue) :
    (ofPredicate predicate (.parse name) value).isBounded := by
  rw [isBounded_iff]
  rintro _ (_ | ⟨_, literal⟩)
  · exact Path.isBounded_parse name
  · cases value with
    | none => cases literal
    | some value =>
        rcases List.mem_singleton.mp literal with rfl
        rfl

theorem isWellFormed_ofPredicate
    {predicate : Predicate}
    {value : Option AttributeValue}
    (name : String)
    (fits : value.toList.length + 1 = predicate.arity) :
    (ofPredicate predicate (.parse name) value).isWellFormed := by
  have rooted : (Operand.path (.parse name)).isWellFormed := Path.isRooted_parse name
  rw [ofPredicate, isWellFormed, Predicate.accepts, ← fits]
  cases value with
  | none => simp [rooted]
  | some value => simpa using ⟨rooted, rfl⟩

/-- An expression can say a condition that was made. -/
theorem Made.isWellFormed (made : condition.Made) : condition.isWellFormed := by
  induction made with
  | comparison isPlace operator value =>
      exact Bool.and_eq_true_iff.mpr ⟨isPlace.isWellFormed, rfl⟩
  | range isPlace low high =>
      rw [ofRange, Condition.isWellFormed, isPlace.isWellFormed]
      rfl
  | @candidates values name nonempty =>
      rw [ofCandidates, Condition.isWellFormed]
      have rooted : (Operand.path (.parse name)).isWellFormed := Path.isRooted_parse name
      have literals : (values.map Operand.value).all Operand.isWellFormed := by
        simp [Operand.isWellFormed, Operand.path?]
      simp [rooted, literals, nonempty]
  | attributeExists name => exact isWellFormed_ofPredicate name rfl
  | attributeNotExists name => exact isWellFormed_ofPredicate name rfl
  | attributeType name kind => exact isWellFormed_ofPredicate name rfl
  | beginsWith name value => exact isWellFormed_ofPredicate name rfl
  | contains name value => exact isWellFormed_ofPredicate name rfl
  | and _ _ leftIH rightIH => exact Bool.and_eq_true_iff.mpr ⟨leftIH, rightIH⟩
  | or _ _ leftIH rightIH => exact Bool.and_eq_true_iff.mpr ⟨leftIH, rightIH⟩
  | not _ ih => exact ih

/-- The indexes of a condition that was made are list indexes. -/
theorem Made.isBounded (made : condition.Made) : condition.isBounded := by
  induction made with
  | comparison isPlace operator value =>
      rw [isBounded_iff]
      rintro _ (_ | ⟨_, _ | ⟨_, ⟨⟩⟩⟩)
      · exact isPlace.isBounded
      · rfl
  | range isPlace low high =>
      rw [isBounded_iff]
      rintro _ (_ | ⟨_, _ | ⟨_, _ | ⟨_, ⟨⟩⟩⟩⟩)
      · exact isPlace.isBounded
      · rfl
      · rfl
  | candidates name nonempty =>
      rw [isBounded_iff]
      rintro _ (_ | ⟨_, literal⟩)
      · exact Path.isBounded_parse name
      · rcases List.mem_map.mp literal with ⟨value, -, rfl⟩
        rfl
  | attributeExists name => exact isBounded_ofPredicate _ name _
  | attributeNotExists name => exact isBounded_ofPredicate _ name _
  | attributeType name kind => exact isBounded_ofPredicate _ name _
  | beginsWith name value => exact isBounded_ofPredicate _ name _
  | contains name value => exact isBounded_ofPredicate _ name _
  | and _ _ leftIH rightIH => exact isBounded_joined.mpr ⟨leftIH, rightIH⟩
  | or _ _ leftIH rightIH => exact isBounded_joined.mpr ⟨leftIH, rightIH⟩
  | not _ ih => exact ih

end Condition

end ItemTable
