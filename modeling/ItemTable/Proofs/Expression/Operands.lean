import ItemTable.Proofs.Expression.Parsing

/-!
# The operands of what is read

A derivation of a condition has the phrases of its operands in the order in which they
are written.  The condition that is read has the meanings of these phrases as its
operands, in the same order, so an operand is read the same wherever it stands.
-/

namespace ItemTable

variable {references : References}

/-! ## The phrases of operands -/

namespace OperandPhrases

def toList (phrase : OperandPhrases) : List OperandPhrase :=
  phrase.first :: phrase.others

end OperandPhrases

/-- The operands that something is related to. -/
def RelationPhrase.operands : RelationPhrase → List OperandPhrase
  | compare _ right => [right]
  | between low high => [low, high]
  | among candidates => candidates.toList

mutual

/-- The phrases of the operands of a condition, from left to right. -/
def Phrase.operands {level : Level} : Phrase level → List OperandPhrase
  | .chain first others => first.operands ++ others.operands
  | .not inner => inner.operands
  | .plain inner => inner.operands
  | .parenthesized inner => inner.operands
  | .test _ arguments => arguments.toList
  | .related left relation => left :: relation.operands

def Phrases.operands {connective : Connective} : Phrases connective → List OperandPhrase
  | .nil => []
  | .cons first others => first.operands ++ others.operands

end

/-! ## Their meanings -/

/-- Phrases stand for operands, one for one. -/
def Means
    (references : References)
    (phrases : List OperandPhrase)
    (operands : List Operand) : Prop :=
  List.Forall₂ (fun phrase operand => phrase.operand? references = some operand) phrases operands

/-- The operand at a place is what the phrase at this place stands for. -/
theorem Means.getElem?
    {phrases : List OperandPhrase}
    {operands : List Operand}
    {n : Nat}
    {phrase : OperandPhrase}
    {operand : Operand}
    (means : Means references phrases operands)
    (isPhrase : phrases[n]? = some phrase)
    (meant : phrase.operand? references = some operand) :
    operands[n]? = some operand := by
  induction means generalizing n with
  | nil => cases isPhrase
  | cons here others ih =>
      cases n with
      | zero =>
          cases isPhrase
          exact here.symm.trans meant
      | succ n => exact ih isPhrase

theorem forall₂_of_mapM
    {phrase α : Type}
    {meaning? : phrase → Option α}
    {phrases : List phrase}
    {values : List α}
    (meant : phrases.mapM meaning? = some values) :
    List.Forall₂ (fun part value => meaning? part = some value) phrases values := by
  induction phrases generalizing values with
  | nil =>
      cases meant
      exact .nil
  | cons first phrases ih =>
      rcases Recognizes.mapM_cons_eq_some_iff.mp meant with ⟨value, more, here, others, rfl⟩
      exact .cons here (ih others)

theorem OperandPhrases.means
    {phrase : OperandPhrases}
    {operands : List Operand}
    (meant : phrase.operands? references = some operands) :
    Means references phrase.toList operands := by
  rcases Option.bind_eq_some_iff.mp meant with ⟨first, here, behind⟩
  rcases Option.bind_eq_some_iff.mp behind with ⟨others, there, ⟨⟩⟩
  exact .cons here (forall₂_of_mapM there)

theorem RelationPhrase.means
    {phrase : RelationPhrase}
    {left : OperandPhrase}
    {operand : Operand}
    {condition : Condition}
    (leftMeant : left.operand? references = some operand)
    (meant : phrase.condition? references operand = some condition) :
    Means references (left :: phrase.operands) condition.operands := by
  cases phrase with
  | compare operator right =>
      rcases Option.bind_eq_some_iff.mp meant with ⟨other, found, ⟨⟩⟩
      exact .cons leftMeant (.cons found .nil)
  | between low high =>
      rcases Option.bind_eq_some_iff.mp meant with ⟨lower, lowFound, behind⟩
      rcases Option.bind_eq_some_iff.mp behind with ⟨upper, highFound, ⟨⟩⟩
      exact .cons leftMeant (.cons lowFound (.cons highFound .nil))
  | among candidates =>
      rcases Option.bind_eq_some_iff.mp meant with ⟨found, listed, ⟨⟩⟩
      exact .cons leftMeant (OperandPhrases.means listed)

theorem Condition.operands_foldl
    (connective : Connective)
    (left : Condition)
    (rights : List Condition) :
    (rights.foldl (Condition.joined connective) left).operands =
      left.operands ++ rights.flatMap Condition.operands := by
  induction rights generalizing left with
  | nil => exact (List.append_nil _).symm
  | cons right rights ih =>
      show (rights.foldl (Condition.joined connective) (.joined connective left right)).operands = _
      rw [ih, List.flatMap_cons, ← List.append_assoc]
      rfl

mutual

/-- The operands of a condition are what the phrases of its derivation stand for. -/
theorem Phrase.means {level : Level} :
    ∀ (phrase : Phrase level) {condition : Condition},
      phrase.condition? references = some condition →
        Means references phrase.operands condition.operands
  | .chain first others, condition, meant => by
      rw [Phrase.condition?] at meant
      rcases Option.bind_eq_some_iff.mp meant with ⟨left, head, behind⟩
      rcases Option.bind_eq_some_iff.mp behind with ⟨rights, tail, ⟨⟩⟩
      rw [Phrase.operands, Condition.operands_foldl]
      exact List.rel_append (first.means head) (others.means tail)
  | .not inner, condition, meant => by
      rw [Phrase.condition?] at meant
      rcases Option.bind_eq_some_iff.mp meant with ⟨negated, found, ⟨⟩⟩
      have means := inner.means found
      exact means
  | .plain inner, condition, meant => inner.means meant
  | .parenthesized inner, condition, meant => inner.means meant
  | .test predicate arguments, condition, meant => by
      rw [Phrase.condition?] at meant
      rcases Option.bind_eq_some_iff.mp meant with ⟨operands, found, accepted⟩
      rcases Option.ite_none_right_eq_some.mp accepted with ⟨-, ⟨⟩⟩
      exact OperandPhrases.means found
  | .related left relation, condition, meant => by
      rw [Phrase.condition?] at meant
      rcases Option.bind_eq_some_iff.mp meant with ⟨operand, found, related⟩
      exact RelationPhrase.means found related

theorem Phrases.means {connective : Connective} :
    ∀ (phrases : Phrases connective) {conditions : List Condition},
      phrases.conditions? references = some conditions →
        Means references phrases.operands (conditions.flatMap Condition.operands)
  | .nil, conditions, meant => by
      cases meant
      exact .nil
  | .cons first others, conditions, meant => by
      rw [Phrases.conditions?] at meant
      rcases Option.bind_eq_some_iff.mp meant with ⟨right, head, behind⟩
      rcases Option.bind_eq_some_iff.mp behind with ⟨rights, tail, ⟨⟩⟩
      rw [Phrases.operands, List.flatMap_cons]
      exact List.rel_append (first.means head) (others.means tail)

end

/-- The operands of what a text is read as are what the phrases of any derivation of the
text stand for. -/
theorem Scope.means_of_condition
    {scope : Scope}
    {text : String}
    {condition : Condition}
    {phrase : Phrase (.chain .or)}
    (read : (scope.condition text).1 = .ok condition)
    (spelled : Lexes text.toList phrase.tokens) :
    Means scope.references phrase.operands condition.operands := by
  rcases condition_fst_eq_ok_iff.mp read with ⟨found, foundSpelled, meant⟩
  have same : found = phrase := Phrase.eq_of_lexes foundSpelled spelled
  rw [← same]
  exact found.means meant

end ItemTable
