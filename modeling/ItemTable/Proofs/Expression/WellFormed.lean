import ItemTable.Proofs.Expression.Parsing

/-!
# What is read is well formed

A derivation begins every path with a name, gives every membership a candidate, and
stands for a condition only if all predicates accept their arguments.  So the condition
that an expression is read as is one that an expression can say.
-/

namespace ItemTable

variable {references : References}

/-- Each of several meanings is one of the parts. -/
theorem exists_of_mem_mapM
    {phrase α : Type}
    {meaning? : phrase → Option α}
    {phrases : List phrase}
    {values : List α}
    {value : α}
    (meant : phrases.mapM meaning? = some values)
    (member : value ∈ values) :
    ∃ part ∈ phrases, meaning? part = some value := by
  induction phrases generalizing values with
  | nil =>
      cases meant
      cases member
  | cons first phrases ih =>
      rcases Recognizes.mapM_cons_eq_some_iff.mp meant with ⟨head, tail, here, behind, rfl⟩
      rcases List.mem_cons.mp member with rfl | inTail
      · exact ⟨first, List.mem_cons_self, here⟩
      · rcases ih behind inTail with ⟨part, isPart, found⟩
        exact ⟨part, List.mem_cons_of_mem _ isPart, found⟩

theorem PathPhrase.isRooted_of_path?
    {phrase : PathPhrase}
    {path : Path}
    (meant : phrase.path? references = some path) :
    path.isRooted := by
  rcases Option.bind_eq_some_iff.mp meant with ⟨root, -, behind⟩
  rcases Option.bind_eq_some_iff.mp behind with ⟨elements, -, ⟨⟩⟩
  rfl

theorem OperandPhrase.isWellFormed_of_operand?
    {phrase : OperandPhrase}
    {operand : Operand}
    (meant : phrase.operand? references = some operand) :
    operand.isWellFormed := by
  cases phrase with
  | literal word =>
      rcases Option.map_eq_some_iff.mp meant with ⟨value, -, rfl⟩
      rfl
  | size place =>
      rcases Option.map_eq_some_iff.mp meant with ⟨path, found, rfl⟩
      exact PathPhrase.isRooted_of_path? found
  | path place =>
      rcases Option.map_eq_some_iff.mp meant with ⟨path, found, rfl⟩
      exact PathPhrase.isRooted_of_path? found

theorem OperandPhrases.isWellFormed_of_operands?
    {phrase : OperandPhrases}
    {operands : List Operand}
    (meant : phrase.operands? references = some operands) :
    operands ≠ [] ∧ ∀ operand ∈ operands, operand.isWellFormed := by
  rcases Option.bind_eq_some_iff.mp meant with ⟨first, head, behind⟩
  rcases Option.bind_eq_some_iff.mp behind with ⟨others, tail, ⟨⟩⟩
  refine ⟨List.cons_ne_nil _ _, ?_⟩
  rintro operand (_ | ⟨_, member⟩)
  · exact OperandPhrase.isWellFormed_of_operand? head
  · rcases exists_of_mem_mapM tail member with ⟨part, -, found⟩
    exact OperandPhrase.isWellFormed_of_operand? found

theorem RelationPhrase.isWellFormed_of_condition?
    {phrase : RelationPhrase}
    {left : Operand}
    {condition : Condition}
    (meant : phrase.condition? references left = some condition)
    (leftValid : left.isWellFormed) :
    condition.isWellFormed := by
  cases phrase with
  | compare operator right =>
      rcases Option.bind_eq_some_iff.mp meant with ⟨other, found, ⟨⟩⟩
      rw [Condition.isWellFormed, leftValid, OperandPhrase.isWellFormed_of_operand? found]
      rfl
  | between low high =>
      rcases Option.bind_eq_some_iff.mp meant with ⟨first, lowFound, behind⟩
      rcases Option.bind_eq_some_iff.mp behind with ⟨second, highFound, ⟨⟩⟩
      rw [Condition.isWellFormed, leftValid, OperandPhrase.isWellFormed_of_operand? lowFound,
        OperandPhrase.isWellFormed_of_operand? highFound]
      rfl
  | among candidates =>
      rcases Option.bind_eq_some_iff.mp meant with ⟨found, listed, ⟨⟩⟩
      rcases OperandPhrases.isWellFormed_of_operands? listed with ⟨nonempty, valid⟩
      rw [Condition.isWellFormed, leftValid, List.all_eq_true.mpr valid,
        List.isEmpty_eq_false_iff.mpr nonempty]
      rfl

namespace Condition

/-- Conditions that are joined one after the other are well formed if each of them is. -/
theorem isWellFormed_foldl
    {connective : Connective}
    {left : Condition}
    {rights : List Condition}
    (leftValid : left.isWellFormed)
    (valid : ∀ right ∈ rights, right.isWellFormed) :
    (rights.foldl (joined connective) left).isWellFormed := by
  induction rights generalizing left with
  | nil => exact leftValid
  | cons right rights ih =>
      apply ih
      · rw [isWellFormed, leftValid, valid right List.mem_cons_self]
        rfl
      · exact fun other member => valid other (List.mem_cons_of_mem _ member)

end Condition

mutual

theorem Phrase.isWellFormed_of_condition? {level : Level} :
    ∀ (phrase : Phrase level) {condition : Condition},
      phrase.condition? references = some condition → condition.isWellFormed
  | .chain first others, condition, meant => by
      rw [Phrase.condition?] at meant
      rcases Option.bind_eq_some_iff.mp meant with ⟨left, head, behind⟩
      rcases Option.bind_eq_some_iff.mp behind with ⟨rights, tail, ⟨⟩⟩
      exact Condition.isWellFormed_foldl (first.isWellFormed_of_condition? head)
        (others.isWellFormed_of_conditions? tail)
  | .not inner, condition, meant => by
      rw [Phrase.condition?] at meant
      rcases Option.bind_eq_some_iff.mp meant with ⟨negated, found, ⟨⟩⟩
      have valid := inner.isWellFormed_of_condition? found
      exact valid
  | .plain inner, condition, meant => inner.isWellFormed_of_condition? meant
  | .parenthesized inner, condition, meant => inner.isWellFormed_of_condition? meant
  | .test predicate arguments, condition, meant => by
      rw [Phrase.condition?] at meant
      rcases Option.bind_eq_some_iff.mp meant with ⟨operands, found, accepted⟩
      rcases Option.ite_none_right_eq_some.mp accepted with ⟨accepts, ⟨⟩⟩
      rcases OperandPhrases.isWellFormed_of_operands? found with ⟨-, valid⟩
      rw [Condition.isWellFormed, List.all_eq_true.mpr valid, accepts]
      rfl
  | .related left relation, condition, meant => by
      rw [Phrase.condition?] at meant
      rcases Option.bind_eq_some_iff.mp meant with ⟨operand, found, related⟩
      exact RelationPhrase.isWellFormed_of_condition? related
        (OperandPhrase.isWellFormed_of_operand? found)

theorem Phrases.isWellFormed_of_conditions? {connective : Connective} :
    ∀ (phrases : Phrases connective) {conditions : List Condition},
      phrases.conditions? references = some conditions →
        ∀ condition ∈ conditions, condition.isWellFormed
  | .nil, conditions, meant => by
      cases meant
      exact nofun
  | .cons first others, conditions, meant => by
      rw [Phrases.conditions?] at meant
      rcases Option.bind_eq_some_iff.mp meant with ⟨right, head, behind⟩
      rcases Option.bind_eq_some_iff.mp behind with ⟨rights, tail, ⟨⟩⟩
      rintro condition (_ | ⟨_, member⟩)
      · exact first.isWellFormed_of_condition? head
      · exact others.isWellFormed_of_conditions? tail condition member

end

/-- What a text is read as can be said by an expression. -/
theorem Scope.isWellFormed_of_condition
    {scope : Scope}
    {text : String}
    {condition : Condition}
    (read : (scope.condition text).1 = .ok condition) :
    condition.isWellFormed := by
  rcases condition_fst_eq_ok_iff.mp read with ⟨found, -, meant⟩
  exact found.isWellFormed_of_condition? meant

end ItemTable
