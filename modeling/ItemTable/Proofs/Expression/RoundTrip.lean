import ItemTable.Expression.Scope
import ItemTable.Proofs.Expression.Reading
import ItemTable.Proofs.Placeholder.Calls

/-!
# Rendered conditions are read back

A condition that is rendered somewhere in the use of a placeholder table is read
back from its text with what the placeholders mean in the end, whatever else the
table was used for before and after.  A condition that is not well formed is
never read as another one: its text is refused.
-/

namespace ItemTable

namespace PlaceholderTable

/-! ## What a table knows -/

/-- The names and literals have placeholders. -/
structure Knows
    (table : PlaceholderTable)
    (names : List String)
    (values : List AttributeValue) : Prop where
  name : ∀ name ∈ names, ∃ placeholder, table.names.assigned.lookup name = some placeholder
  value : ∀ value ∈ values,
    ∃ placeholder, table.values.assigned.lookup value = some placeholder

theorem exists_lookup_allotAll
    {α : Type}
    [DecidableEq α]
    (allotment : Allotment α)
    {keys : List α}
    {key : α}
    (member : key ∈ keys) :
    ∃ placeholder, (allotment.allotAll keys).assigned.lookup key = some placeholder := by
  rw [← Option.isSome_iff_exists, AssociationList.lookup_isSome_iff_mem,
    Allotment.mem_keys_allotAll]
  exact .inr member

/-- A table knows what it has met, and later tables know it as well. -/
theorem Extends.knows
    {table later : PlaceholderTable}
    {names : List String}
    {values : List AttributeValue}
    (extension : later.Extends (table.meet names values)) :
    later.Knows names values := by
  constructor
  · intro name member
    rcases exists_lookup_allotAll table.names member with ⟨placeholder, known⟩
    exact ⟨placeholder, extension.names name placeholder known⟩
  · intro value member
    rcases exists_lookup_allotAll table.values member with ⟨placeholder, known⟩
    exact ⟨placeholder, extension.values value placeholder known⟩

/-- What the placeholders of a table stand for. -/
def references (table : PlaceholderTable) : References where
  names := table.names.meanings
  values := table.values.meanings

variable {table : PlaceholderTable} {names : List String} {values : List AttributeValue}

theorem isMarkedWord_naming_name
    {name placeholder : String}
    (marked : table.names.Marked '#')
    (known : table.names.assigned.lookup name = some placeholder) :
    Text.isMarkedWord '#' (table.naming.name name) := by
  simpa [naming, known] using marked.assigned _ (AssociationList.mem_of_lookup known)

theorem find?_naming_name
    {name placeholder : String}
    (sound : table.names.Sound)
    (marked : table.names.Marked '#')
    (known : table.names.assigned.lookup name = some placeholder) :
    table.names.meanings.find? ("#" ++ Text.unmarked (table.naming.name name)) = some name := by
  have whole : "#" ++ Text.unmarked (table.naming.name name) = table.naming.name name :=
    Text.mark_append_unmarked (isMarkedWord_naming_name marked known)
  rw [whole]
  exact sound.find?_meanings.2 (by simp [naming, known])

/-- A sound table writes marked words for what it knows. -/
theorem Sound.marks
    (sound : table.Sound)
    (knows : table.Knows names values) :
    table.naming.Marks names values := by
  constructor
  · intro name member
    rcases knows.name name member with ⟨placeholder, known⟩
    exact isMarkedWord_naming_name sound.markedNames known
  · intro value member
    rcases knows.value value member with ⟨placeholder, known⟩
    simpa [naming, known] using
      sound.markedValues.assigned _ (AssociationList.mem_of_lookup known)

/-- The placeholders of a sound table stand for what it knows. -/
theorem Sound.resolves
    (sound : table.Sound)
    (knows : table.Knows names values) :
    table.naming.Resolves table.references names values := by
  constructor
  · intro name member
    rcases knows.name name member with ⟨placeholder, known⟩
    exact find?_naming_name sound.names sound.markedNames known
  · intro value member
    rcases knows.value value member with ⟨placeholder, known⟩
    have whole : ":" ++ Text.unmarked (table.naming.value value) = table.naming.value value :=
      Text.mark_append_unmarked ((sound.marks knows).value value member)
    rw [whole]
    exact sound.values.find?_meanings.2 (by simp [naming, known])

theorem Knows.operand
    {condition : Condition}
    {operand : Operand}
    (knows : table.Knows condition.names condition.literals)
    (member : operand ∈ condition.operands) :
    table.Knows operand.names operand.literals :=
  ⟨fun name mentioned =>
      knows.name name (List.mem_flatMap.2 ⟨operand, member, mentioned⟩),
    fun value mentioned =>
      knows.value value (List.mem_flatMap.2 ⟨operand, member, mentioned⟩)⟩

end PlaceholderTable

/-! ## Reading a spelled condition -/

namespace References

variable {naming : Naming} {references : References}

theorem scanExpression_spell
    {condition : Condition}
    (scans : ∀ operand ∈ condition.operands, operand.Scans naming) :
    scanExpression (condition.spell naming) =
      .ok (condition.tokens naming ++ [Token.endOfInput]) := by
  have scanned := Condition.scan_spell scans []
  rw [List.append_nil, Token.scan_nil] at scanned
  rw [scanExpression, scanned]
  cases condition <;> rfl

end References

/-- A sound table that knows the mentions of a condition reads its spelling: all
tokens are mentioned if it is well formed, and it is refused otherwise. -/
theorem Scope.condition_spell
    {table : PlaceholderTable}
    {condition : Condition}
    {scope : Scope}
    (sound : table.Sound)
    (knows : table.Knows condition.names condition.literals)
    (bounded : condition.isBounded)
    (explained : scope.references = table.references) :
    let read := scope.condition (condition.spell table.naming)
    if condition.isWellFormed then
      read = (.ok condition,
        scope.mention (condition.tokens table.naming ++ [Token.endOfInput]))
    else
      ∃ error, read.1 = .error error := by
  have scans : ∀ operand ∈ condition.operands, operand.Scans table.naming :=
    fun operand member =>
      ⟨sound.marks (knows.operand member), List.all_eq_true.1 bounded operand member⟩
  have tokens := References.reads_condition fun operand member =>
    sound.resolves (knows.operand member)
  simp only [Scope.condition, Scope.parse, References.scanExpression_spell scans, explained]
  split
  next valid =>
    rw [Reads, if_pos valid] at tokens
    rw [tokens]
  next invalid =>
    rw [Reads, if_neg invalid] at tokens
    rcases tokens with ⟨failure, failed⟩
    exact ⟨failure.error, by rw [failed]⟩

/-! ## Reading a rendered condition -/

/-- A rendered condition is read with what the placeholders of any later table
mean. -/
theorem PlaceholderTable.Sound.condition_render
    {table later : PlaceholderTable}
    {condition : Condition}
    (sound : later.Sound)
    (extension : later.Extends (table.render condition).2)
    (bounded : condition.isBounded) :
    let read := ((Scope.start later.names.meanings later.values.meanings).condition
      (table.render condition).1).1
    if condition.isWellFormed then read = .ok condition else ∃ error, read = .error error := by
  have spelled := spells_render table condition
  have knows := Extends.knows (spelled.table ▸ extension)
  have read := Scope.condition_spell sound knows bounded
    (show (Scope.start later.names.meanings later.values.meanings).references =
      later.references from rfl)
  rw [spelled.text later extension]
  simp only at read ⊢
  split
  next valid =>
    rw [if_pos valid] at read
    rw [read]
  next invalid =>
    rw [if_neg invalid] at read
    exact read

/-- A condition that a table rendered is read back with what the placeholders
mean in the end, and a condition that is not well formed is refused.  In
particular, a well-formed condition is recovered from its compiled form. -/
theorem condition_read_back
    {table : PlaceholderTable}
    (opening : table.Opening)
    (earlier later : List PlaceholderTable.Call)
    (condition : Condition)
    (bounded : condition.isBounded) :
    let text := ((table.calls earlier).render condition).1
    let final := table.calls (earlier ++ .condition condition :: later)
    let read := ((Scope.start final.names.meanings final.values.meanings).condition text).1
    let compiled := condition.compile
    (condition.isWellFormed → read = .ok condition) ∧
      (¬ condition.isWellFormed → ∃ error, read = .error error) ∧
      (condition.isWellFormed →
        ((Scope.start compiled.names compiled.values).condition compiled.expression).1 =
          .ok condition) := by
  intro text final read compiled
  have inSequence :
      if condition.isWellFormed then read = .ok condition else ∃ error, read = .error error := by
    have extension : final.Extends ((table.calls earlier).render condition).2 := by
      have steps : final = ((table.calls earlier).call (.condition condition)).calls later :=
        List.foldl_append
      exact steps ▸ PlaceholderTable.extends_calls _ later
    exact (opening.sound.calls _).condition_render extension bounded
  have onItsOwn :
      condition.isWellFormed →
        ((Scope.start compiled.names compiled.values).condition compiled.expression).1 =
          .ok condition := by
    intro valid
    have started := PlaceholderTable.Opening.start.sound
    have sound : (PlaceholderTable.start.render condition).2.Sound := by
      rw [(PlaceholderTable.spells_render _ condition).table]
      exact started.meet _ _
    have whole := sound.condition_render (.refl _) bounded
    rw [if_pos valid] at whole
    exact whole
  refine ⟨fun valid => ?_, fun invalid => ?_, onItsOwn⟩
  · rwa [if_pos valid] at inSequence
  · rwa [if_neg invalid] at inSequence

/-- A range joined with a predicate, under a NOT, in a table that goes on from a
placeholder of its own kind. -/
theorem condition_read_back_seeded :
    let table := PlaceholderTable.seeded (.ofList [("#n0", "Views (all)")]) ∅
    let tags : Path := ⟨[.attribute "Tags", .index 3, .attribute "AND"]⟩
    let views : Path := ⟨[.attribute "Views (all)"]⟩
    let condition : Condition :=
      .not (.or
        (.between (.path views) (.value (.number "1")) (.size tags))
        (.test .contains [.path tags, .value (.string "(#n0 = :v0)")]))
    let text := ((table.calls [.projection ["Tags[0], Views"]]).render condition).1
    let final := table.calls
      ([.projection ["Tags[0], Views"]] ++ .condition condition :: [.name "Replies"])
    ((Scope.start final.names.meanings final.values.meanings).condition text).1 =
      .ok condition := by
  have opening : (PlaceholderTable.seeded (.ofList [("#n0", "Views (all)")]) ∅).Opening :=
    .seeded _ _ (by decide +kernel) (by decide +kernel) (by decide +kernel) (by decide +kernel)
  exact (condition_read_back opening _ [.name "Replies"] _ rfl).1 rfl

end ItemTable
