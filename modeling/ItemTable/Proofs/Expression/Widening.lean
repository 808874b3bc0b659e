import ItemTable.Proofs.Expression.Agreement
import ItemTable.Proofs.Expression.Scopes

/-!
# Reading with more placeholders

A table that goes on after a condition was rendered gives out placeholders that the
text of the condition does not mention.  With these the text is read as before: as the
same condition, or not at all and for the same reason.
-/

namespace ItemTable

open PlaceholderTable (spells_render)

/-- A later allotment explains the placeholders that were given out before alike. -/
theorem Allotment.Extends.find?_meanings
    {α : Type}
    [DecidableEq α]
    {later earlier : Allotment α}
    {key : α}
    {placeholder : String}
    (wider : later.Extends earlier)
    (sound : later.Sound)
    (earlierSound : earlier.Sound)
    (given : earlier.assigned.lookup key = some placeholder) :
    later.meanings.find? placeholder = earlier.meanings.find? placeholder := by
  have meaning := earlierSound.find?_meanings.mpr given
  have laterMeaning := sound.find?_meanings.mpr (wider key placeholder given)
  exact laterMeaning.trans meaning.symm

namespace PlaceholderTable

variable
    {earlier table narrow : PlaceholderTable}
    {condition : Condition}

/-- A later table spells a condition as the table behind it does. -/
theorem Extends.spell_eq
    (wider : table.Extends narrow)
    (extension : narrow.Extends (earlier.meet condition.names condition.literals)) :
    condition.spell table.naming = condition.spell narrow.naming := by
  have spelled := spells_render earlier condition
  rw [← spelled.table] at extension
  rw [← spelled.text narrow extension, ← spelled.text table (wider.trans extension)]

/-- A later table explains the placeholders of a condition as the table behind it does. -/
theorem Extends.agreeOn
    (wider : table.Extends narrow)
    (extension : narrow.Extends (earlier.meet condition.names condition.literals))
    (sound : table.Sound)
    (narrowSound : narrow.Sound) :
    table.references.AgreeOn narrow.references
      (condition.tokens narrow.naming ++ [Token.endOfInput]) := by
  have knows := extension.knows
  have mentions : Mentions narrow.naming (condition.tokens narrow.naming ++ [Token.endOfInput])
      condition.names condition.literals := by
    apply Mentions.concat _ rfl rfl
    apply mentions_conditionTokens
    exact fun operand member => narrowSound.marks (knows.operand member)
  constructor
  · intro word member
    have mentioned : "#" ++ word ∈ Scope.namesIn
        (condition.tokens narrow.naming ++ [Token.endOfInput]) :=
      List.mem_filterMap.mpr ⟨_, member, rfl⟩
    rw [mentions.names] at mentioned
    rcases List.mem_map.mp mentioned with ⟨name, isName, same⟩
    rcases knows.name name isName with ⟨placeholder, known⟩
    simp only [naming, known, Option.getD_some] at same
    subst same
    exact wider.names.find?_meanings sound.names narrowSound.names known
  · intro word member
    have mentioned : ":" ++ word ∈ Scope.valuesIn
        (condition.tokens narrow.naming ++ [Token.endOfInput]) :=
      List.mem_filterMap.mpr ⟨_, member, rfl⟩
    rw [mentions.values] at mentioned
    rcases List.mem_map.mp mentioned with ⟨value, isValue, same⟩
    rcases knows.value value isValue with ⟨placeholder, known⟩
    simp only [naming, known, Option.getD_some] at same
    subst same
    exact wider.values.find?_meanings sound.values narrowSound.values known

end PlaceholderTable

namespace Scope

variable
    {scope bare : Scope}
    {earlier table narrow : PlaceholderTable}
    {condition : Condition}
    {names : List String}
    {values : List AttributeValue}

/-- A condition is read alike with a later table, which has read as much. -/
theorem HasRead.condition_widened
    (read : scope.HasRead table names values)
    (bareRead : bare.HasRead narrow names values)
    (sound : table.Sound)
    (narrowSound : narrow.Sound)
    (wider : table.Extends narrow)
    (extension : narrow.Extends (earlier.meet condition.names condition.literals))
    (bounded : condition.isBounded) :
    if condition.isWellFormed then
      ∃ next bareNext : Scope,
        scope.condition (condition.spell table.naming) = (.ok condition, next) ∧
          bare.condition (condition.spell narrow.naming) = (.ok condition, bareNext) ∧
          next.HasRead table (names ++ condition.names) (values ++ condition.literals) ∧
          bareNext.HasRead narrow (names ++ condition.names) (values ++ condition.literals)
    else
      ∃ error,
        (scope.condition (condition.spell table.naming)).1 = .error error ∧
          (bare.condition (condition.spell narrow.naming)).1 = .error error := by
  have knows := extension.knows
  split
  · rename_i valid
    rcases read.condition sound (wider.trans extension).knows bounded valid with
      ⟨next, result, nextRead⟩
    rcases bareRead.condition narrowSound knows bounded valid with
      ⟨bareNext, bareResult, bareNextRead⟩
    exact ⟨next, bareNext, result, bareResult, nextRead, bareNextRead⟩
  · rename_i invalid
    have refused := condition_spell narrowSound knows bounded bareRead.references
    rw [if_neg invalid] at refused
    rcases refused with ⟨error, failed⟩
    refine ⟨error, ?_, failed⟩
    have scans : ∀ operand ∈ condition.operands, operand.Scans narrow.naming :=
      fun operand member =>
        ⟨narrowSound.marks (knows.operand member), List.all_eq_true.mp bounded operand member⟩
    have agree := wider.agreeOn extension sound narrowSound
    rw [← read.references, ← bareRead.references] at agree
    rw [wider.spell_eq extension, ← failed]
    exact condition_fst_congr (References.scanExpression_spell scans) agree

end Scope

end ItemTable
