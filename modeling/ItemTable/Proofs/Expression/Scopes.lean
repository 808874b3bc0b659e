import ItemTable.Proofs.Expression.Mentions

/-!
# Expressions read in one scope

The expressions of a request are read one after the other with what one table has
given out.  Each of them is read as the tree that was rendered, and once all of
them are read, no placeholder of the table is left that was never mentioned.
-/

namespace ItemTable

namespace Scope

/-- Expressions were read that mention the given names and literals. -/
structure HasRead
    (scope : Scope)
    (table : PlaceholderTable)
    (names : List String)
    (values : List AttributeValue) : Prop where
  references : scope.references = table.references
  names : scope.usedNames = names.map table.naming.name
  values : scope.usedValues = values.map table.naming.value

variable
    {scope : Scope}
    {table : PlaceholderTable}
    {names moreNames : List String}
    {values moreValues : List AttributeValue}

theorem HasRead.start (table : PlaceholderTable) :
    (Scope.start table.names.meanings table.values.meanings).HasRead table [] [] :=
  ⟨rfl, rfl, rfl⟩

theorem HasRead.mention
    {tokens : List Token}
    (read : scope.HasRead table names values)
    (mentions : Mentions table.naming tokens moreNames moreValues) :
    (scope.mention tokens).HasRead table (names ++ moreNames) (values ++ moreValues) := by
  constructor
  · exact read.references
  · change scope.usedNames ++ namesIn tokens = _
    rw [read.names, mentions.names, List.map_append]
  · change scope.usedValues ++ valuesIn tokens = _
    rw [read.values, mentions.values, List.map_append]

/-! ## One expression -/

/-- A condition that the table knows is read from its spelling. -/
theorem HasRead.condition
    {condition : Condition}
    (read : scope.HasRead table names values)
    (sound : table.Sound)
    (knows : table.Knows condition.names condition.literals)
    (bounded : condition.isBounded)
    (valid : condition.isWellFormed) :
    ∃ next : Scope,
      scope.condition (condition.spell table.naming) = (.ok condition, next) ∧
        next.HasRead table (names ++ condition.names) (values ++ condition.literals) := by
  have result := condition_spell sound knows bounded read.references
  rw [if_pos valid] at result
  refine ⟨_, result, ?_⟩
  apply read.mention
  apply Mentions.concat _ rfl rfl
  apply mentions_conditionTokens
  intro operand member
  exact sound.marks (knows.operand member)

/-- The paths of a projection that the table knows are read from their spelling. -/
theorem HasRead.projection
    {paths : List Path}
    (read : scope.HasRead table names values)
    (sound : table.Sound)
    (knows : table.Knows (paths.flatMap Path.names) [])
    (rooted : ∀ path ∈ paths, path.isRooted)
    (bounded : ∀ path ∈ paths, path.isBounded)
    (nonempty : paths ≠ []) :
    ∃ next : Scope,
      scope.projection (Path.spellAll table.naming paths) = (.ok paths, next) ∧
        next.HasRead table (names ++ paths.flatMap Path.names) values := by
  refine ⟨_, projection_spell sound knows rooted bounded nonempty read.references, ?_⟩
  rw [← List.append_nil values]
  apply read.mention
  apply Mentions.concat _ rfl rfl
  exact mentions_pathTokensAll (sound.marks knows)

/-! ## The end -/

/-- Nothing is listed for no placeholder at all, and for the empty one alone. -/
theorem listing_eq_empty_iff {placeholders : List String} :
    ExpressionError.listing placeholders = "" ↔ placeholders = [] ∨ placeholders = [""] := by
  match placeholders with
  | [] => exact ⟨fun _ => .inl rfl, fun _ => rfl⟩
  | [placeholder] => simp [ExpressionError.listing]
  | first :: second :: others =>
      have separated : ExpressionError.listing (first :: second :: others) ≠ "" := by
        rw [ExpressionError.listing, String.intercalate_cons_cons, String.append_assoc]
        intro empty
        rcases String.append_eq_empty_iff.mp empty with ⟨-, behind⟩
        rcases String.append_eq_empty_iff.mp behind with ⟨sign, -⟩
        exact absurd sign (by decide)
      simp [separated]

@[simp]
theorem mem_leftOver {explained used : List String} {placeholder : String} :
    placeholder ∈ leftOver explained used ↔ placeholder ∈ explained ∧ placeholder ∉ used := by
  simp [leftOver]

/-- Nothing is left over to be listed if every placeholder but the empty one was
mentioned. -/
theorem listing_leftOver_eq_empty_iff
    {explained used : List String}
    (distinct : explained.Nodup) :
    ExpressionError.listing (leftOver explained used) = "" ↔
      ∀ placeholder ∈ explained, placeholder = "" ∨ placeholder ∈ used := by
  have distinctLeft : (leftOver explained used).Nodup := distinct.filter _
  have allEmpty :
      leftOver explained used = [] ∨ leftOver explained used = [""] ↔
        ∀ placeholder ∈ leftOver explained used, placeholder = "" := by
    match leftOver explained used, distinctLeft with
    | [], _ => simp
    | [placeholder], _ => simp
    | first :: second :: others, distinctBoth =>
        have different : first ≠ second := by
          rintro rfl
          exact (List.nodup_cons.mp distinctBoth).1 List.mem_cons_self
        constructor
        · rintro (⟨⟨⟩⟩ | ⟨⟨⟩⟩)
        · intro empty
          have same := empty first List.mem_cons_self
          have again := empty second (List.mem_cons_of_mem _ List.mem_cons_self)
          exact absurd (same.trans again.symm) different
  rw [listing_eq_empty_iff, allEmpty]
  simp only [mem_leftOver, and_imp]
  constructor
  · intro empty placeholder given
    by_cases mentioned : placeholder ∈ used
    · exact .inr mentioned
    · exact .inl (empty placeholder given mentioned)
  · intro covered placeholder given unmentioned
    exact (covered placeholder given).resolve_right unmentioned

/-- A scope is left in order if every placeholder that was explained was mentioned; the
empty one need not be. -/
theorem finish_eq_ok_iff :
    scope.finish = .ok () ↔
      (∀ placeholder ∈ scope.references.names.names,
          placeholder = "" ∨ placeholder ∈ scope.usedNames) ∧
        ∀ placeholder ∈ scope.references.values.names,
          placeholder = "" ∨ placeholder ∈ scope.usedValues := by
  rw [← listing_leftOver_eq_empty_iff scope.references.names.nodup_names,
    ← listing_leftOver_eq_empty_iff scope.references.values.nodup_names, finish]
  split
  · rename_i someName
    exact ⟨nofun, fun both => absurd both.1 someName⟩
  · rename_i noName
    rw [ne_eq, not_not] at noName
    split
    · rename_i someValue
      exact ⟨nofun, fun both => absurd both.2 someValue⟩
    · rename_i noValue
      rw [ne_eq, not_not] at noValue
      exact ⟨fun _ => ⟨noName, noValue⟩, fun _ => rfl⟩

/-- All placeholders of an allotment from the start are those of the keys met. -/
theorem mem_used_of_mem_meanings
    {α : Type}
    [DecidableEq α]
    {stem placeholder : String}
    {keys : List α}
    {used : List String}
    (sound : ((Allotment.start stem).allotAll keys).Sound)
    (covers : ∀ key ∈ keys,
      ((((Allotment.start stem).allotAll keys).assigned.lookup key).getD "") ∈ used)
    (given : placeholder ∈ ((Allotment.start stem).allotAll keys).meanings.names) :
    placeholder ∈ used := by
  rcases sound.mem_names_meanings.mp given with ⟨key, assigned⟩
  have known := AssociationList.lookup_isSome_iff_mem.mp (Option.isSome_of_eq_some assigned)
  rcases (Allotment.mem_keys_allotAll _ keys key).mp known with before | met
  · cases before
  · have mentioned := covers key met
    rwa [assigned, Option.getD_some] at mentioned

/-- After all that a table has met was mentioned, no placeholder is left over. -/
theorem HasRead.finish
    (read : scope.HasRead (.meet .start names values) names values)
    (sound : (PlaceholderTable.meet .start names values).Sound) :
    scope.finish = .ok () := by
  rw [finish_eq_ok_iff, read.references, read.names, read.values]
  constructor
  · intro placeholder given
    right
    apply mem_used_of_mem_meanings sound.names _ given
    intro name member
    exact List.mem_map_of_mem member
  · intro placeholder given
    right
    apply mem_used_of_mem_meanings sound.values _ given
    intro value member
    exact List.mem_map_of_mem member

end Scope

end ItemTable
