import ItemTable.Condition.Render
import ItemTable.Proofs.Condition.Form
import ItemTable.Proofs.Placeholder.Allotment

/-!
# Rendering as spelling

Rendering threads a table through a condition and takes placeholders from it on
the way.  The two effects come apart.  The table afterwards is the one that has
met the names and the literals of the condition in order, and the text is the
condition spelled with the placeholders that any later table has for them.

So the text of a condition may be read with the placeholders of the final table,
whatever is rendered after it.
-/

namespace ItemTable

/-- What is written for names and for literals. -/
structure Naming where
  name : String → String
  value : AttributeValue → String

/-! ## Spelling -/

namespace Path

/-- The elements of a path behind the first ones. -/
def spellElements (naming : Naming) : List PathElement → String
  | [] => ""
  | .attribute name :: elements => "." ++ naming.name name ++ spellElements naming elements
  | .index position :: elements =>
      "[" ++ position.repr ++ "]" ++ spellElements naming elements

/-- A path. -/
def spell (naming : Naming) (path : Path) : String :=
  match path.elements with
  | .attribute name :: elements => naming.name name ++ spellElements naming elements
  | elements => spellElements naming elements

/-- Paths with commas between them. -/
def spellAll (naming : Naming) : List Path → String
  | [] => ""
  | [path] => path.spell naming
  | path :: paths => path.spell naming ++ "," ++ spellAll naming paths

end Path

namespace Operand

/-- An operand. -/
def spell (naming : Naming) : Operand → String
  | path place => place.spell naming
  | value literal => naming.value literal
  | size place => "size(" ++ place.spell naming ++ ")"

/-- Operands with commas between them. -/
def spellAll (naming : Naming) : List Operand → String
  | [] => ""
  | [operand] => operand.spell naming
  | operand :: operands => operand.spell naming ++ ", " ++ spellAll naming operands

end Operand

/-- A condition. -/
def Condition.spell (naming : Naming) : Condition → String
  | compare left operator right =>
      "(" ++ left.spell naming ++ " " ++ operator.symbol ++ " " ++ right.spell naming ++ ")"
  | between value low high =>
      "(" ++ value.spell naming ++ " BETWEEN " ++ low.spell naming ++ " AND " ++
        high.spell naming ++ ")"
  | among value candidates =>
      "(" ++ value.spell naming ++ " IN (" ++ Operand.spellAll naming candidates ++ "))"
  | joined connective left right =>
      "(" ++ left.spell naming ++ " " ++ connective.word ++ " " ++ right.spell naming ++ ")"
  | not inner => "(NOT " ++ inner.spell naming ++ ")"
  | test predicate arguments =>
      predicate.name ++ "(" ++ Operand.spellAll naming arguments ++ ")"

namespace PlaceholderTable

/-! ## Tables that know more -/

/-- What the table writes for names and literals that it has met. -/
def naming (table : PlaceholderTable) : Naming where
  name name := (table.names.assigned.lookup name).getD ""
  value value := (table.values.assigned.lookup value).getD ""

/-- Every name and literal that has a placeholder has the same one in `later`. -/
structure Extends (later earlier : PlaceholderTable) : Prop where
  names : later.names.Extends earlier.names
  values : later.values.Extends earlier.values

theorem Extends.refl (table : PlaceholderTable) : table.Extends table :=
  ⟨.refl table.names, .refl table.values⟩

theorem Extends.trans
    {last later earlier : PlaceholderTable}
    (second : last.Extends later)
    (first : later.Extends earlier) :
    last.Extends earlier :=
  ⟨second.names.trans first.names, second.values.trans first.values⟩

/-- The table after some names and literals have been met. -/
def meet
    (table : PlaceholderTable)
    (names : List String)
    (values : List AttributeValue) :
    PlaceholderTable where
  names := table.names.allotAll names
  values := table.values.allotAll values

@[simp]
theorem meet_nil (table : PlaceholderTable) : table.meet [] [] = table :=
  rfl

theorem meet_append
    (table : PlaceholderTable)
    (firstNames secondNames : List String)
    (firstValues secondValues : List AttributeValue) :
    table.meet (firstNames ++ secondNames) (firstValues ++ secondValues) =
      (table.meet firstNames firstValues).meet secondNames secondValues := by
  simp [meet, Allotment.allotAll_append]

theorem extends_meet
    (table : PlaceholderTable)
    (names : List String)
    (values : List AttributeValue) :
    (table.meet names values).Extends table :=
  ⟨table.names.extends_allotAll names, table.values.extends_allotAll values⟩

/-! ## A rendering and its spelling -/

/-- A rendering takes the placeholders for the given names and literals, and its
text is spelled with the placeholders of every later table. -/
structure Spells
    (table : PlaceholderTable)
    (rendered : String × PlaceholderTable)
    (names : List String)
    (values : List AttributeValue)
    (spelled : Naming → String) : Prop where
  table : rendered.2 = table.meet names values
  text : ∀ later : PlaceholderTable, later.Extends rendered.2 →
    rendered.1 = spelled later.naming

/-- A text without placeholders takes none. -/
theorem Spells.constant
    (table : PlaceholderTable)
    (text : String) :
    table.Spells (text, table) [] [] fun _ => text :=
  ⟨rfl, fun _ _ => rfl⟩

theorem Spells.name
    (table : PlaceholderTable)
    (name : String) :
    table.Spells (table.name name) [name] [] fun naming => naming.name name := by
  refine ⟨rfl, fun later extension => ?_⟩
  have known := extension.names name _ (table.names.lookup_allot name)
  simp [naming, known, PlaceholderTable.name]

theorem Spells.value
    (table : PlaceholderTable)
    (value : AttributeValue) :
    table.Spells (table.value value) [] [value] fun naming => naming.value value := by
  refine ⟨rfl, fun later extension => ?_⟩
  have known := extension.values value _ (table.values.lookup_allot value)
  simp [naming, known, PlaceholderTable.value]

/-- Two renderings in a row, with their texts put together. -/
theorem Spells.join
    {table : PlaceholderTable}
    {first second : String × PlaceholderTable}
    {firstNames secondNames : List String}
    {firstValues secondValues : List AttributeValue}
    {firstSpelled secondSpelled : Naming → String}
    (head : table.Spells first firstNames firstValues firstSpelled)
    (tail : first.2.Spells second secondNames secondValues secondSpelled)
    (combine : String → String → String) :
    table.Spells (combine first.1 second.1, second.2)
      (firstNames ++ secondNames) (firstValues ++ secondValues)
      fun naming => combine (firstSpelled naming) (secondSpelled naming) := by
  refine ⟨?_, fun later extension => ?_⟩
  · rw [meet_append, ← head.table]
    exact tail.table
  · have between : second.2.Extends first.2 := by
      rw [tail.table]
      exact first.2.extends_meet _ _
    rw [head.text later (extension.trans between), tail.text later extension]

/-- A rendering with something written around it. -/
theorem Spells.wrap
    {table : PlaceholderTable}
    {rendered : String × PlaceholderTable}
    {names : List String}
    {values : List AttributeValue}
    {spelled : Naming → String}
    (inner : table.Spells rendered names values spelled)
    (change : String → String) :
    table.Spells (change rendered.1, rendered.2) names values
      fun naming => change (spelled naming) :=
  ⟨inner.table, fun later extension => congrArg change (inner.text later extension)⟩

/-! ## Every rendering -/

theorem spells_renderElements
    (table : PlaceholderTable)
    (elements : List PathElement) :
    table.Spells (table.renderElements elements) (Path.names ⟨elements⟩) []
      fun naming => Path.spellElements naming elements := by
  induction elements generalizing table with
  | nil => exact .constant table ""
  | cons element elements ih =>
      cases element with
      | «attribute» name =>
          exact (Spells.name table name).join (ih _) fun name rest => "." ++ name ++ rest
      | index position =>
          exact (ih table).wrap fun rest => "[" ++ position.repr ++ "]" ++ rest

theorem spells_renderPath
    (table : PlaceholderTable)
    (path : Path) :
    table.Spells (table.renderPath path) path.names [] path.spell := by
  rcases path with ⟨elements⟩
  match elements with
  | [] => exact .constant table ""
  | .attribute name :: elements =>
      exact (Spells.name table name).join (spells_renderElements _ elements) (· ++ ·)
  | .index position :: elements =>
      exact spells_renderElements table (.index position :: elements)

theorem spells_renderOperand
    (table : PlaceholderTable)
    (operand : Operand) :
    table.Spells (table.renderOperand operand) operand.names operand.literals
      operand.spell := by
  cases operand with
  | path place => exact spells_renderPath table place
  | value literal => exact .value table literal
  | size place =>
      exact (spells_renderPath table place).wrap fun text => "size(" ++ text ++ ")"

theorem spells_renderOperands
    (table : PlaceholderTable)
    (operands : List Operand) :
    table.Spells (table.renderOperands operands) (operands.flatMap Operand.names)
      (operands.flatMap Operand.literals) fun naming => Operand.spellAll naming operands := by
  induction operands generalizing table with
  | nil => exact .constant table ""
  | cons operand operands ih =>
      cases operands with
      | nil =>
          rw [List.flatMap_singleton, List.flatMap_singleton]
          exact spells_renderOperand table operand
      | cons second operands =>
          exact (spells_renderOperand table operand).join (ih _) fun first rest =>
            first ++ ", " ++ rest

/-- A condition is spelled with its placeholders. -/
theorem spells_render
    (table : PlaceholderTable)
    (condition : Condition) :
    table.Spells (table.render condition) condition.names condition.literals
      condition.spell := by
  induction condition generalizing table with
  | compare left operator right =>
      rw [Condition.names_compare, Condition.literals_compare]
      exact (spells_renderOperand table left).join (spells_renderOperand _ right)
        fun left right => "(" ++ left ++ " " ++ operator.symbol ++ " " ++ right ++ ")"
  | between value low high =>
      have ends := (spells_renderOperand (table.renderOperand value).2 low).join
        (spells_renderOperand _ high) fun low high => low ++ " AND " ++ high
      have parts := (spells_renderOperand table value).join ends
        fun value ends => "(" ++ value ++ " BETWEEN " ++ ends ++ ")"
      rw [Condition.names_between, Condition.literals_between]
      simpa [render, Condition.spell, String.append_assoc] using parts
  | among value candidates =>
      exact (spells_renderOperand table value).join (spells_renderOperands _ candidates)
        fun value candidates => "(" ++ value ++ " IN (" ++ candidates ++ "))"
  | joined connective left right leftIH rightIH =>
      rw [Condition.names_joined, Condition.literals_joined]
      exact (leftIH table).join (rightIH _)
        fun left right => "(" ++ left ++ " " ++ connective.word ++ " " ++ right ++ ")"
  | not inner ih => exact (ih table).wrap fun inner => "(NOT " ++ inner ++ ")"
  | test predicate arguments =>
      exact (spells_renderOperands table arguments).wrap
        fun arguments => predicate.name ++ "(" ++ arguments ++ ")"

/-! ## Projections -/

/-- The paths that the entries of a projection list. -/
def projectedPaths (entries : List String) : List Path :=
  (projectedNames entries).map Path.parse

theorem spells_renderNames
    (table : PlaceholderTable)
    (names : List String) :
    table.Spells (table.renderNames names) ((names.map Path.parse).flatMap Path.names) []
      fun naming => Path.spellAll naming (names.map Path.parse) := by
  induction names generalizing table with
  | nil => exact .constant table ""
  | cons name names ih =>
      cases names with
      | nil =>
          rw [List.map_singleton, List.flatMap_singleton]
          exact spells_renderPath table (Path.parse name)
      | cons second names =>
          exact (spells_renderPath table (Path.parse name)).join (ih _) fun first rest =>
            first ++ "," ++ rest

/-- A projection without names has no text. -/
theorem renderProjection_eq_none_iff
    (table : PlaceholderTable)
    (entries : List String) :
    (table.renderProjection entries).1 = none ↔ projectedPaths entries = [] := by
  rw [renderProjection, projectedPaths, List.map_eq_nil_iff]
  split <;> simp_all

/-- A projection is spelled with its placeholders, and one without names takes
none. -/
theorem spells_renderProjection
    (table : PlaceholderTable)
    (entries : List String) :
    table.Spells
      ((table.renderProjection entries).1.getD "", (table.renderProjection entries).2)
      ((projectedPaths entries).flatMap Path.names) []
      fun naming => Path.spellAll naming (projectedPaths entries) := by
  rw [renderProjection, projectedPaths]
  split
  next none => exact none ▸ .constant table ""
  next => exact spells_renderNames table (projectedNames entries)

end PlaceholderTable

end ItemTable
