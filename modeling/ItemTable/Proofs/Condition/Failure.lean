import ItemTable.Condition.Evaluation
import ItemTable.Proofs.Expression.WellFormed
import ItemTable.Proofs.NameMap
import ItemTable.Proofs.Number.DecimalText

/-!
# Why conditions cannot be evaluated

An evaluation fails for three reasons only: a number is compared whose text denotes none, an
attribute is tested for a kind that is no string, or a predicate is applied to something
else than a path.  Nothing that was read from an expression has the last fault, and the size
of a value is always a number.  So a condition that names its kinds can be evaluated on every
item whose numbers denote something, as far as they can be reached, and so do its literals.
-/

namespace ItemTable

/-! ## Numbers in values -/

/-- A text stands for a number somewhere in a value. -/
inductive AttributeValue.HasNumber (text : String) : AttributeValue → Prop
  | number : HasNumber text (.number text)
  | item
      {items : List AttributeValue}
      {value : AttributeValue}
      (member : value ∈ items)
      (inside : HasNumber text value) :
      HasNumber text (.list items)
  | field
      {fields : Item}
      {name : String}
      {value : AttributeValue}
      (found : fields.find? name = some value)
      (inside : HasNumber text value) :
      HasNumber text (.map fields)

/-- A text stands for a number somewhere in an item. -/
def Item.HasNumber (item : Item) (text : String) : Prop :=
  ∃ name value, item.find? name = some value ∧ AttributeValue.HasNumber text value

section

variable {text : String} {value found : AttributeValue}

theorem AttributeValue.HasNumber.of_step?
    {element : PathElement}
    (stepped : value.step? element = some found)
    (inside : HasNumber text found) :
    HasNumber text value := by
  cases element with
  | «attribute» name =>
      rcases Option.bind_eq_some_iff.mp stepped with ⟨fields, isMap, isField⟩
      cases value <;> cases isMap
      exact .field isField inside
  | index position =>
      rcases Option.bind_eq_some_iff.mp stepped with ⟨items, isList, isItem⟩
      cases value <;> cases isList
      exact .item (List.mem_of_getElem? isItem) inside

theorem AttributeValue.HasNumber.of_walk?
    {elements : List PathElement}
    (walked : value.walk? elements = some found)
    (inside : HasNumber text found) :
    HasNumber text value := by
  induction elements generalizing value with
  | nil =>
      cases walked
      exact inside
  | cons element elements ih =>
      rw [walk?, List.foldlM_cons] at walked
      rcases Option.bind_eq_some_iff.mp walked with ⟨next, stepped, others⟩
      exact .of_step? stepped (ih others)

/-- The numbers in the value at a path stand in the item. -/
theorem Item.HasNumber.of_resolve?
    {item : Item}
    {place : Path}
    (resolved : item.resolve? place = some found)
    (inside : AttributeValue.HasNumber text found) :
    item.HasNumber text := by
  unfold Item.resolve? at resolved
  split at resolved
  · rename_i name elements _
    rcases Option.bind_eq_some_iff.mp resolved with ⟨root, isRoot, walked⟩
    exact ⟨name, root, isRoot, .of_walk? walked inside⟩
  · cases resolved

end

/-! ## Sizes -/

/-- The digits of a natural number denote a number. -/
theorem Binary64.isSome_ofText?_repr (number : Nat) : (ofText? number.repr).isSome := by
  have isText : (DecimalText.ofNat number).text = number.repr := by
    simp [DecimalText.text, DecimalText.body, DecimalText.ofNat, DecimalText.fractionChars,
      DecimalText.powerChars, Sign.chars, Nat.repr]
  have nearest := (DecimalText.ofNat number).signed_ofText?
  rw [isText] at nearest
  rw [← Option.isSome_map, nearest]
  rfl

namespace AttributeValue

variable {left right : AttributeValue} {operator : Comparison} {text : String}

theorem readNumber_eq_ok (readable : (Binary64.ofText? text).isSome) :
    ∃ number, readNumber text = .ok number := by
  rcases Option.isSome_iff_exists.mp readable with ⟨number, isNumber⟩
  rw [readNumber, isNumber]
  exact ⟨number, rfl⟩

theorem readNumber_eq_error
    {error : ExpressionError}
    (failed : readNumber text = .error error) :
    error = .notANumber text ∧ Binary64.ofText? text = none := by
  rw [readNumber] at failed
  split at failed
  · cases failed
  · rename_i unread
    cases failed
    exact ⟨rfl, unread⟩

/-! ## Comparisons -/

theorem order?_eq_error
    {error : ExpressionError}
    (failed : left.order? right = .error error) :
    ∃ text, error = .notANumber text ∧ Binary64.ofText? text = none ∧
      (left = .number text ∨ right = .number text) := by
  unfold order? at failed
  split at failed
  · cases failed
  · rename_i leftText rightText
    rcases bind_eq_error.mp failed with leftFailed | ⟨_, -, others⟩
    · rcases readNumber_eq_error leftFailed with ⟨isError, unread⟩
      exact ⟨leftText, isError, unread, .inl rfl⟩
    · rcases bind_eq_error.mp others with rightFailed | ⟨_, -, ⟨⟩⟩
      rcases readNumber_eq_error rightFailed with ⟨isError, unread⟩
      exact ⟨rightText, isError, unread, .inr rfl⟩
  · cases failed
  · cases failed

/-- A comparison fails only because one side is a number whose text denotes none. -/
theorem relates_eq_error
    {error : ExpressionError}
    (failed : left.relates operator right = .error error) :
    ∃ text, error = .notANumber text ∧ Binary64.ofText? text = none ∧
      (left = .number text ∨ right = .number text) := by
  rcases bind_eq_error.mp failed with unordered | ⟨order, -, related⟩
  · exact order?_eq_error unordered
  · split at related <;> cases related

theorem order?_of_kind_ne (different : left.kind ≠ right.kind) :
    left.order? right = .ok none := by
  unfold order?
  split
  · exact absurd rfl different
  · exact absurd rfl different
  · exact absurd rfl different
  · rfl

/-- Across kinds values are unequal, and nothing else. -/
theorem relates_of_kind_ne (different : left.kind ≠ right.kind) :
    left.relates operator right = .ok (operator == .notEqual) := by
  have unequal : left ≠ right := fun same => different (congrArg kind same)
  unfold relates
  rw [order?_of_kind_ne different, ok_bind]
  cases operator with
  | equal => exact congrArg Except.ok (decide_eq_false unequal)
  | notEqual => exact congrArg Except.ok (decide_eq_true unequal)
  | _ => rfl

end AttributeValue

/-! ## Operands -/

/-- A number that an operand has stands in the item, or in the condition, or is a size. -/
theorem Operand.number_of_resolve?
    {operand : Operand}
    {item : Item}
    {text : String}
    (resolved : operand.resolve? item = some (.number text)) :
    item.HasNumber text ∨ .number text ∈ operand.literals ∨ ∃ size : Nat, text = size.repr := by
  cases operand with
  | path place => exact .inl (.of_resolve? resolved .number)
  | value literal =>
      cases resolved
      exact .inr (.inl (List.mem_singleton_self _))
  | size place =>
      rcases Option.map_eq_some_iff.mp resolved with ⟨value, -, isSize⟩
      exact .inr (.inr ⟨value.size, (AttributeValue.number.inj isSize).symm⟩)

namespace Condition

/-! ## Conditions -/

/-- The conditions without connectives that a condition is made of. -/
def parts : Condition → List Condition
  | joined _ left right => left.parts ++ right.parts
  | not inner => inner.parts
  | part => [part]

/-- What is wrong with a condition and an item when the evaluation fails. -/
inductive FailsBy (condition : Condition) (item : Item) : ExpressionError → Prop
  | number
      {text : String}
      (stands : item.HasNumber text ∨ .number text ∈ condition.literals)
      (unread : Binary64.ofText? text = none) :
      FailsBy condition item (.notANumber text)
  | kind
      {arguments : List Operand}
      (tested : .test .attributeType arguments ∈ condition.parts)
      (noKind : ∀ kind, arguments[1]? ≠ some (.value (.string kind))) :
      FailsBy condition item .notAKind
  | place
      {predicate : Predicate}
      {arguments : List Operand}
      (tested : .test predicate arguments ∈ condition.parts)
      (noPath : ∀ place others, arguments ≠ .path place :: others) :
      FailsBy condition item (.notAPath predicate)

variable {condition inner : Condition} {item : Item} {error : ExpressionError}

/-- What is wrong with a part is wrong with the whole. -/
theorem FailsBy.of_part
    (fails : inner.FailsBy item error)
    (parts : inner.parts ⊆ condition.parts)
    (literals : inner.literals ⊆ condition.literals) :
    condition.FailsBy item error := by
  cases fails with
  | number stands unread => exact .number (stands.imp_right (@literals _)) unread
  | kind tested noKind => exact .kind (parts tested) noKind
  | place tested noPath => exact .place (parts tested) noPath

/-- What is wrong when two operands of a condition cannot be compared. -/
theorem FailsBy.of_relates
    {left right : Operand}
    {value other : AttributeValue}
    {operator : Comparison}
    (isLeft : left ∈ condition.operands)
    (isRight : right ∈ condition.operands)
    (resolved : left.resolve? item = some value)
    (otherResolved : right.resolve? item = some other)
    (failed : value.relates operator other = .error error) :
    condition.FailsBy item error := by
  have ofOperand {operand : Operand} {text : String}
      (isOperand : operand ∈ condition.operands)
      (resolved : operand.resolve? item = some (.number text))
      (unread : Binary64.ofText? text = none) :
      condition.FailsBy item (.notANumber text) := by
    rcases Operand.number_of_resolve? resolved with inItem | isLiteral | ⟨size, rfl⟩
    · exact .number (.inl inItem) unread
    · exact .number (.inr (List.mem_flatMap.mpr ⟨operand, isOperand, isLiteral⟩)) unread
    · have readable := Binary64.isSome_ofText?_repr size
      rw [unread] at readable
      cases readable
  rcases AttributeValue.relates_eq_error failed with ⟨text, rfl, unread, rfl | rfl⟩
  · exact ofOperand isLeft resolved unread
  · exact ofOperand isRight otherResolved unread

theorem failsBy_of_equalsOne
    {value : AttributeValue}
    {left : Operand}
    {candidates : List Operand}
    (isLeft : left ∈ condition.operands)
    (areOperands : ∀ candidate ∈ candidates, candidate ∈ condition.operands)
    (resolved : left.resolve? item = some value)
    (failed : equalsOne value item candidates = .error error) :
    condition.FailsBy item error := by
  induction candidates with
  | nil => cases failed
  | cons candidate candidates ih =>
      have others := ih fun other member => areOperands other (List.mem_cons_of_mem _ member)
      simp only [equalsOne] at failed
      split at failed
      · exact others failed
      · rename_i found candidateResolved
        rcases bind_eq_error.mp failed with uncompared | ⟨settled, -, further⟩
        · exact .of_relates isLeft (areOperands candidate List.mem_cons_self) resolved
            candidateResolved uncompared
        · cases settled with
          | true => cases further
          | false => exact others further

theorem failsBy_of_test
    {predicate : Predicate}
    {arguments : List Operand}
    (failed : predicate.holds arguments item = .error error) :
    (test predicate arguments).FailsBy item error := by
  have tested : test predicate arguments ∈ (test predicate arguments).parts :=
    List.mem_singleton_self _
  unfold Predicate.holds at failed
  split at failed
  · rename_i place others
    cases predicate with
    | attributeExists | attributeNotExists => cases failed
    | beginsWith | contains =>
        dsimp only at failed
        split at failed <;> cases failed
    | attributeType =>
        dsimp only at failed
        split at failed
        · cases failed
        · rename_i noKind
          cases failed
          refine .kind tested ?_
          intro kind isKind
          rw [List.getElem?_cons_succ, ← List.head?_eq_getElem?] at isKind
          apply noKind kind
          rw [isKind]
          rfl
  · rename_i noPath
    cases failed
    exact .place tested noPath

/-- An evaluation that fails has one of the three reasons. -/
theorem failsBy_of_holds (failed : condition.holds item = .error error) :
    condition.FailsBy item error := by
  induction condition with
  | compare left operator right =>
      rw [holds] at failed
      split at failed
      · rename_i value other resolved otherResolved
        exact .of_relates (by simp [operands]) (by simp [operands]) resolved otherResolved failed
      · cases failed
  | between value low high =>
      rw [holds] at failed
      split at failed
      · rename_i found lowest highest resolved lowResolved highResolved
        rcases bind_eq_error.mp failed with uncompared | ⟨above, -, further⟩
        · exact .of_relates (by simp [operands]) (by simp [operands]) resolved
            lowResolved uncompared
        · cases above with
          | true =>
              exact .of_relates (by simp [operands]) (by simp [operands]) resolved
                  highResolved further
          | false => cases further
      · cases failed
  | among value candidates =>
      rw [holds] at failed
      split at failed
      · rename_i found resolved
        exact failsBy_of_equalsOne List.mem_cons_self
          (fun candidate member => List.mem_cons_of_mem _ member) resolved failed
      · cases failed
  | joined connective left right leftIH rightIH =>
      have ofLeft (leftFailed : left.holds item = .error error) :
          (joined connective left right).FailsBy item error := by
        refine (leftIH leftFailed).of_part (List.subset_append_left _ _) ?_
        rw [literals_joined]
        exact List.subset_append_left _ _
      have ofRight (rightFailed : right.holds item = .error error) :
          (joined connective left right).FailsBy item error := by
        refine (rightIH rightFailed).of_part (List.subset_append_right _ _) ?_
        rw [literals_joined]
        exact List.subset_append_right _ _
      cases connective <;>
      · rcases bind_eq_error.mp failed with leftFailed | ⟨settled, -, further⟩
        · exact ofLeft leftFailed
        · cases settled <;> first | cases further | exact ofRight further
  | not inner ih =>
      rcases bind_eq_error.mp failed with innerFailed | ⟨settled, -, ⟨⟩⟩
      exact (ih innerFailed).of_part (List.Subset.refl _) (List.Subset.refl _)
  | test predicate arguments => exact failsBy_of_test failed

theorem holds_compare_of_missing
    {left right : Operand}
    {operator : Comparison}
    (missing : left.resolve? item = none ∨ right.resolve? item = none) :
    (compare left operator right).holds item = .ok false := by
  rw [holds]
  rcases missing with missing | missing <;> rw [missing]
  cases left.resolve? item <;> rfl

/-! ## Conditions that were read -/

/-- A well-formed condition applies its predicates to paths. -/
theorem exists_path_of_isWellFormed
    {predicate : Predicate}
    {arguments : List Operand}
    (valid : condition.isWellFormed)
    (tested : test predicate arguments ∈ condition.parts) :
    ∃ place others, arguments = .path place :: others := by
  induction condition with
  | joined connective left right leftIH rightIH =>
      rw [isWellFormed, Bool.and_eq_true] at valid
      rcases List.mem_append.mp tested with inLeft | inRight
      · exact leftIH valid.1 inLeft
      · exact rightIH valid.2 inRight
  | not inner ih => exact ih valid tested
  | test applied given =>
      cases List.mem_singleton.mp tested
      unfold isWellFormed Predicate.accepts at valid
      rw [Bool.and_eq_true, Bool.and_eq_true] at valid
      rcases valid with ⟨-, -, shape⟩
      split at shape
      · exact ⟨_, _, rfl⟩
      · cases shape
  | compare | between | among => cases List.mem_singleton.mp tested

/-- Every test for a kind names the kind by a literal. -/
def NamesKinds (condition : Condition) : Prop :=
  ∀ arguments, test .attributeType arguments ∈ condition.parts →
    ∃ kind, arguments[1]? = some (.value (.string kind))

/-- The condition of an expression can be evaluated on every item, if the texts of the
numbers in both denote numbers and the kinds that are tested for are named.  None of its
predicates lacks its path, whatever the item holds, and no size is in the way of a
comparison.  A comparison without one of its sides does not hold, and of the comparisons
across kinds just the inequality does. -/
theorem evaluation_succeeds
    {scope : Scope}
    {text : String}
    {condition : Condition}
    {item : Item}
    (read : (scope.condition text).1 = .ok condition)
    (kinds : condition.NamesKinds)
    (numbers : ∀ digits, item.HasNumber digits → (Binary64.ofText? digits).isSome)
    (literals : ∀ digits, .number digits ∈ condition.literals →
      (Binary64.ofText? digits).isSome) :
    (∃ answer, condition.holds item = .ok answer) ∧
      (∀ (other : Item) predicate, condition.holds other ≠ .error (.notAPath predicate)) ∧
      (∀ (other : Item) place value, (Operand.size place).resolve? other = some value →
        ∃ digits number,
          value = .number digits ∧ AttributeValue.readNumber digits = .ok number) ∧
      ∀ (other : Item) left operator right,
        (left.resolve? other = none ∨ right.resolve? other = none →
          (compare left operator right).holds other = .ok false) ∧
        ∀ value found, left.resolve? other = some value → right.resolve? other = some found →
          value.kind ≠ found.kind →
            (compare left operator right).holds other = .ok (operator == .notEqual) := by
  have noFault (other : Item) (predicate : Predicate) :
      ¬condition.FailsBy other (.notAPath predicate) := by
    rintro (_ | _ | ⟨tested, noPath⟩)
    rcases exists_path_of_isWellFormed (Scope.isWellFormed_of_condition read) tested with
      ⟨place, others, rfl⟩
    exact noPath place others rfl
  refine ⟨?_, ?_, ?_, ?_⟩
  · cases evaluated : condition.holds item with
    | ok answer => exact ⟨answer, rfl⟩
    | error error =>
        cases failsBy_of_holds evaluated with
        | @number digits stands unread =>
            have readable := stands.elim (numbers digits) (literals digits)
            rw [unread] at readable
            cases readable
        | kind tested noKind =>
            rcases kinds _ tested with ⟨kind, named⟩
            exact absurd named (noKind kind)
        | place tested noPath => exact absurd (.place tested noPath) (noFault item _)
  · intro other predicate failed
    exact noFault other predicate (failsBy_of_holds failed)
  · intro other place value resolved
    rcases Option.map_eq_some_iff.mp resolved with ⟨target, -, rfl⟩
    rcases AttributeValue.readNumber_eq_ok (Binary64.isSome_ofText?_repr target.size) with
      ⟨number, isNumber⟩
    exact ⟨_, number, rfl, isNumber⟩
  · intro other left operator right
    refine ⟨holds_compare_of_missing, ?_⟩
    intro value found resolved otherResolved different
    rw [holds, resolved, otherResolved]
    exact AttributeValue.relates_of_kind_ne different

/-- A note is looked at through a size, a kind and an element of a list. -/
theorem evaluation_succeeds_note :
    let scope : Scope := .start ∅ (.ofList
      [(":k", .string "S"), (":one", .number "1"), (":two", .number "2.0")])
    let note : Item := .ofList [("marks", .list [.number "1.50"]), ("page", .number "7")]
    ∃ condition answer,
      (scope.condition "marks[0] < :two AND (size(marks) = :one OR attribute_type(page, :k))").1 =
          .ok condition ∧
        condition.holds note = .ok answer := by
  intro scope note
  have read : (scope.condition
      "marks[0] < :two AND (size(marks) = :one OR attribute_type(page, :k))").1 =
      .ok (and
        (compare (.path ⟨[.attribute "marks", .index 0]⟩) .less (.value (.number "2.0")))
        (or
          (compare (.size ⟨[.attribute "marks"]⟩) .equal (.value (.number "1")))
          (test .attributeType [.path ⟨[.attribute "page"]⟩, .value (.string "S")]))) := by
    decide +kernel
  refine ⟨_, _, read, (evaluation_succeeds read ?_ ?_ ?_).1.choose_spec⟩
  · rintro arguments (_ | ⟨_, _ | ⟨_, _ | ⟨_, ⟨⟩⟩⟩⟩)
    exact ⟨"S", rfl⟩
  · rintro digits ⟨name, value, found, inside⟩
    have entries : note.toList = [("marks", .list [.number "1.50"]), ("page", .number "7")] := by
      decide +kernel
    rw [NameMap.find?_eq_some_iff, entries] at found
    rcases found with _ | ⟨_, _ | ⟨_, ⟨⟩⟩⟩
    · cases inside with
      | item member inside =>
          cases List.mem_singleton.mp member
          cases inside
          decide +kernel
    · cases inside
      decide +kernel
  · intro digits member
    simp [literals, operands, Operand.literals, and, or] at member
    rcases member with rfl | rfl <;> decide +kernel

/-- The number of an item and a text are unequal, so across kinds a comparison may hold. -/
theorem inequality_across_kinds_holds :
    let scope : Scope := .start ∅ (.ofList [(":v", .string "x")])
    let item : Item := .ofList [("a", .number "1")]
    let place : Operand := .path ⟨[.attribute "a"]⟩
    let literal : Operand := .value (.string "x")
    (scope.condition "a <> :v").1 = .ok (compare place .notEqual literal) ∧
      place.resolve? item = some (.number "1") ∧
      literal.resolve? item = some (.string "x") ∧
      (compare place .notEqual literal).holds item = .ok true := by
  decide +kernel

end Condition

end ItemTable
