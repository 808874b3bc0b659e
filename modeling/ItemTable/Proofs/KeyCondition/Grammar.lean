import ItemTable.KeyCondition.Language
import ItemTable.Proofs.Sequencing

/-!
# The grammar of key conditions

What `Condition.checkKey` lets through, told by rules: comparisons other than
inequality, ranges and prefix tests, whose operands are literals or attributes of the
item itself, joined with AND.
-/

namespace ItemTable

/-- A literal or an attribute of the item itself. -/
inductive Operand.IsKeyOperand : Operand → Prop where
  | literal (value : AttributeValue) : IsKeyOperand (.value value)
  | ofItem (name : String) : IsKeyOperand (.path ⟨[.attribute name]⟩)

/-- A condition in the language of key conditions. -/
inductive Condition.IsKeyCondition : Condition → Prop where
  | compare
      {left right : Operand}
      {operator : Comparison}
      (related : operator ≠ .notEqual)
      (isLeft : left.IsKeyOperand)
      (isRight : right.IsKeyOperand) :
      IsKeyCondition (.compare left operator right)
  | between
      {value low high : Operand}
      (isValue : value.IsKeyOperand)
      (isLow : low.IsKeyOperand)
      (isHigh : high.IsKeyOperand) :
      IsKeyCondition (.between value low high)
  | beginsWith
      {arguments : List Operand}
      (areArguments : ∀ argument ∈ arguments, argument.IsKeyOperand) :
      IsKeyCondition (.test .beginsWith arguments)
  | and
      {left right : Condition}
      (isLeft : left.IsKeyCondition)
      (isRight : right.IsKeyCondition) :
      IsKeyCondition (.joined .and left right)

theorem Path.isTopLevel_iff {place : Path} :
    place.isTopLevel ↔ ∃ name, place = ⟨[.attribute name]⟩ := by
  rcases place with ⟨elements⟩
  rw [isTopLevel]
  constructor
  · intro topLevel
    split at topLevel
    · rename_i name only
      exact ⟨name, congrArg Path.mk only⟩
    · cases topLevel
  · rintro ⟨name, ⟨⟩⟩
    rfl

theorem Operand.checkKey_eq_ok_iff {operand : Operand} :
    operand.checkKey = .ok () ↔ operand.IsKeyOperand := by
  cases operand with
  | path place =>
      constructor
      · intro checked
        rw [checkKey] at checked
        split at checked
        · rename_i topLevel
          rcases Path.isTopLevel_iff.mp topLevel with ⟨name, rfl⟩
          exact .ofItem name
        · cases checked
      · rintro ⟨name⟩
        rfl
  | value value => exact ⟨fun _ => .literal value, fun _ => rfl⟩
  | size place => exact ⟨nofun, nofun⟩

/-- The check of key conditions decides the grammar. -/
theorem Condition.checkKey_eq_ok_iff {condition : Condition} :
    condition.checkKey = .ok () ↔ condition.IsKeyCondition := by
  induction condition with
  | compare left operator right =>
      rw [checkKey]
      by_cases unrelated : operator = .notEqual
      · rw [if_pos unrelated]
        constructor
        · nofun
        · rintro ⟨related, -, -⟩
          exact absurd unrelated related
      · rw [if_neg unrelated, bind_unit_eq_ok, Operand.checkKey_eq_ok_iff,
          Operand.checkKey_eq_ok_iff]
        constructor
        · rintro ⟨isLeft, isRight⟩
          exact .compare unrelated isLeft isRight
        · rintro ⟨-, isLeft, isRight⟩
          exact ⟨isLeft, isRight⟩
  | between value low high =>
      simp only [checkKey, bind_unit_eq_ok, Operand.checkKey_eq_ok_iff]
      constructor
      · rintro ⟨isValue, isLow, isHigh⟩
        exact .between isValue isLow isHigh
      · rintro (_ | ⟨isValue, isLow, isHigh⟩)
        exact ⟨isValue, isLow, isHigh⟩
  | among value candidates => exact ⟨nofun, nofun⟩
  | joined connective left right leftIH rightIH =>
      cases connective with
      | or => exact ⟨nofun, nofun⟩
      | and =>
          rw [checkKey, bind_unit_eq_ok, leftIH, rightIH]
          constructor
          · rintro ⟨isLeft, isRight⟩
            exact .and isLeft isRight
          · rintro (_ | _ | _ | ⟨isLeft, isRight⟩)
            exact ⟨isLeft, isRight⟩
  | not inner => exact ⟨nofun, nofun⟩
  | test predicate arguments =>
      cases predicate with
      | beginsWith =>
          change arguments.forM Operand.checkKey = .ok () ↔ _
          simp only [forM_eq_ok_iff, Operand.checkKey_eq_ok_iff]
          constructor
          · exact .beginsWith
          · rintro (_ | _ | areArguments)
            exact areArguments
      | attributeExists | attributeNotExists | attributeType | contains => exact ⟨nofun, nofun⟩

end ItemTable
