import ItemTable.Proofs.Expression.Projection

/-!
# Mentioned placeholders

A request must mention every placeholder that it explains.  The tokens of a
spelled condition or projection mention the placeholders of exactly the names and
literals of the tree, so the expressions that were rendered from one table
mention all that the table has given out.
-/

namespace ItemTable

namespace Scope

variable {tokens : List Token} {placeholder : String}

theorem mem_namesIn :
    placeholder ∈ namesIn tokens ↔
      ∃ word, placeholder = "#" ++ word ∧ .name word ∈ tokens := by
  rw [namesIn, List.mem_filterMap]
  constructor
  · rintro ⟨token, member, isName⟩
    cases token with
    | name word =>
        cases isName
        exact ⟨word, rfl, member⟩
    | _ => cases isName
  · rintro ⟨word, rfl, member⟩
    exact ⟨_, member, rfl⟩

theorem mem_valuesIn :
    placeholder ∈ valuesIn tokens ↔
      ∃ word, placeholder = ":" ++ word ∧ .value word ∈ tokens := by
  rw [valuesIn, List.mem_filterMap]
  constructor
  · rintro ⟨token, member, isValue⟩
    cases token with
    | value word =>
        cases isValue
        exact ⟨word, rfl, member⟩
    | _ => cases isValue
  · rintro ⟨word, rfl, member⟩
    exact ⟨_, member, rfl⟩

end Scope

/-- Tokens mention the placeholders of exactly the given names and literals. -/
structure Mentions
    (naming : Naming)
    (tokens : List Token)
    (names : List String)
    (values : List AttributeValue) : Prop where
  names : Scope.namesIn tokens = names.map naming.name
  values : Scope.valuesIn tokens = values.map naming.value

namespace Mentions

variable
    {naming : Naming}
    {tokens others : List Token}
    {names otherNames : List String}
    {values otherValues : List AttributeValue}

theorem append
    (first : Mentions naming tokens names values)
    (second : Mentions naming others otherNames otherValues) :
    Mentions naming (tokens ++ others) (names ++ otherNames) (values ++ otherValues) := by
  constructor
  · rw [Scope.namesIn, List.filterMap_append, List.map_append]
    exact congrArg₂ _ first.names second.names
  · rw [Scope.valuesIn, List.filterMap_append, List.map_append]
    exact congrArg₂ _ first.values second.values

/-- A token that is no placeholder mentions nothing. -/
theorem cons
    {token : Token}
    (noName : Scope.namesIn [token] = [])
    (noValue : Scope.valuesIn [token] = [])
    (rest : Mentions naming tokens names values) :
    Mentions naming (token :: tokens) names values := by
  have sign : Mentions naming [token] [] [] := ⟨noName, noValue⟩
  exact sign.append rest

theorem nil : Mentions naming [] [] [] :=
  ⟨rfl, rfl⟩

theorem concat
    {token : Token}
    (rest : Mentions naming tokens names values)
    (noName : Scope.namesIn [token] = [])
    (noValue : Scope.valuesIn [token] = []) :
    Mentions naming (tokens ++ [token]) names values := by
  have sign : Mentions naming [token] [] [] := ⟨noName, noValue⟩
  have both := rest.append sign
  rwa [List.append_nil, List.append_nil] at both

end Mentions

/-! ## Paths and operands -/

section

variable {naming : Naming}

theorem mentions_name
    {name : String}
    (marked : Text.isMarkedWord '#' (naming.name name)) :
    Mentions naming [.name (Text.unmarked (naming.name name))] [name] [] :=
  ⟨congrArg (fun placeholder => [placeholder]) (Text.mark_append_unmarked marked), rfl⟩

theorem mentions_value
    {value : AttributeValue}
    (marked : Text.isMarkedWord ':' (naming.value value)) :
    Mentions naming [.value (Text.unmarked (naming.value value))] [] [value] :=
  ⟨rfl, congrArg (fun placeholder => [placeholder]) (Text.mark_append_unmarked marked)⟩

theorem mentions_elementTokens
    {elements : List PathElement}
    (marks : naming.Marks (Path.names ⟨elements⟩) []) :
    Mentions naming (Path.elementTokens naming elements) (Path.names ⟨elements⟩) [] := by
  induction elements with
  | nil => exact .nil
  | cons element elements ih =>
      cases element with
      | «attribute» name =>
          have others := ih (marks.mono (List.subset_cons_self _ _) (List.Subset.refl _))
          have here := mentions_name (marks.name name List.mem_cons_self)
          exact .cons rfl rfl (here.append others)
      | index position => exact .cons rfl rfl (.cons rfl rfl (.cons rfl rfl (ih marks)))

theorem mentions_pathTokens
    {path : Path}
    (marks : naming.Marks path.names []) :
    Mentions naming (path.tokens naming) path.names [] := by
  rcases path with ⟨elements⟩
  match elements with
  | [] => exact .nil
  | .index position :: elements => exact mentions_elementTokens marks
  | .attribute name :: elements =>
      have others :=
        mentions_elementTokens (marks.mono (List.subset_cons_self _ _) (List.Subset.refl _))
      exact (mentions_name (marks.name name List.mem_cons_self)).append others

theorem mentions_operandTokens
    {operand : Operand}
    (marks : naming.Marks operand.names operand.literals) :
    Mentions naming (operand.tokens naming) operand.names operand.literals := by
  cases operand with
  | path place => exact mentions_pathTokens marks
  | value literal => exact mentions_value (marks.value literal List.mem_cons_self)
  | size place =>
      exact .cons rfl rfl (.cons rfl rfl ((mentions_pathTokens marks).concat rfl rfl))

theorem mentions_operandTokensAll
    {operands : List Operand}
    (marks : ∀ operand ∈ operands, naming.Marks operand.names operand.literals) :
    Mentions naming (Operand.tokensAll naming operands) (operands.flatMap Operand.names)
      (operands.flatMap Operand.literals) := by
  induction operands with
  | nil => exact .nil
  | cons operand operands ih =>
      have here := mentions_operandTokens (marks operand List.mem_cons_self)
      cases operands with
      | nil =>
          rw [List.flatMap_singleton, List.flatMap_singleton]
          exact here
      | cons second operands =>
          have others := ih fun operand member => marks operand (List.mem_cons_of_mem _ member)
          exact here.append (.cons rfl rfl others)

theorem mentions_pathTokensAll
    {paths : List Path}
    (marks : naming.Marks (paths.flatMap Path.names) []) :
    Mentions naming (Path.tokensAll naming paths) (paths.flatMap Path.names) [] := by
  induction paths with
  | nil => exact .nil
  | cons path paths ih =>
      have first : naming.Marks path.names [] :=
        marks.mono (List.subset_append_left _ _) (List.Subset.refl _)
      have here := mentions_pathTokens first
      cases paths with
      | nil =>
          rw [List.flatMap_singleton]
          exact here
      | cons second paths =>
          have others := ih (marks.mono (List.subset_append_right _ _) (List.Subset.refl _))
          exact here.append (.cons rfl rfl others)

/-! ## Conditions -/

/-- The tokens of a condition mention its names and its literals. -/
theorem mentions_conditionTokens
    {condition : Condition}
    (marks : ∀ operand ∈ condition.operands, naming.Marks operand.names operand.literals) :
    Mentions naming (condition.tokens naming) condition.names condition.literals := by
  induction condition with
  | compare left operator right =>
      have first := mentions_operandTokens (marks left (by simp [Condition.operands]))
      have second := mentions_operandTokens (marks right (by simp [Condition.operands]))
      rw [Condition.names_compare, Condition.literals_compare]
      exact .cons rfl rfl (first.append (.cons rfl rfl (second.concat rfl rfl)))
  | between value low high =>
      have first := mentions_operandTokens (marks value (by simp [Condition.operands]))
      have second := mentions_operandTokens (marks low (by simp [Condition.operands]))
      have third := mentions_operandTokens (marks high (by simp [Condition.operands]))
      rw [Condition.names_between, Condition.literals_between]
      apply Mentions.cons rfl rfl
      apply first.append
      apply Mentions.cons rfl rfl
      apply second.append
      exact .cons rfl rfl (third.concat rfl rfl)
  | among value candidates =>
      have first := mentions_operandTokens (marks value List.mem_cons_self)
      have others := mentions_operandTokensAll fun operand member =>
        marks operand (List.mem_cons_of_mem value member)
      have closing : Mentions naming [.closeParenthesis, .closeParenthesis] [] [] :=
        .cons rfl rfl (.cons rfl rfl .nil)
      have closed := others.append closing
      rw [List.append_nil, List.append_nil] at closed
      rw [Condition.names_among, Condition.literals_among]
      exact .cons rfl rfl (first.append (.cons rfl rfl (.cons rfl rfl closed)))
  | joined connective left right leftIH rightIH =>
      have first := leftIH fun operand member => marks operand (List.mem_append_left _ member)
      have second := rightIH fun operand member => marks operand (List.mem_append_right _ member)
      have sign : Mentions naming [connective.token] [] [] := by
        cases connective <;> exact .cons rfl rfl .nil
      rw [Condition.names_joined, Condition.literals_joined]
      exact .cons rfl rfl (first.append (sign.append (second.concat rfl rfl)))
  | not inner ih => exact .cons rfl rfl (.cons rfl rfl ((ih marks).concat rfl rfl))
  | test predicate arguments =>
      have others := mentions_operandTokensAll marks
      exact .cons rfl rfl (.cons rfl rfl (others.concat rfl rfl))

end

end ItemTable
