import ItemTable.Proofs.Expression.Projection

/-!
# Rendered projections are read back

The text of a projection is read back as the paths that its entries list, whatever a
table was used for before and after, and whatever dots, brackets and blanks the entries
hold.  Only the placeholders for names matter: nothing is asked of those for literals.
-/

namespace ItemTable

namespace PlaceholderTable

variable {table : PlaceholderTable}

/-- A new table, or one that goes on from placeholders for names with one meaning each. -/
inductive OpensNames : PlaceholderTable → Prop where
  | start : OpensNames start
  | seeded
      (names : NameMap String)
      (values : NameMap AttributeValue)
      (distinct : (names.toList.map Prod.snd).Nodup)
      (marked : ∀ placeholder ∈ names.names, Text.isMarkedWord '#' placeholder) :
      OpensNames (seeded names values)

/-- Every name has one placeholder, which expressions can spell. -/
structure SoundNames (table : PlaceholderTable) : Prop where
  sound : table.names.Sound
  marked : table.names.Marked '#'

theorem OpensNames.soundNames (opening : table.OpensNames) : table.SoundNames := by
  have stem : Text.isMarkedWord '#' "#n" := by decide
  cases opening with
  | start => exact ⟨.start _, .start stem⟩
  | seeded names values distinct marked => exact ⟨.seeded _ names, .seeded stem marked⟩

theorem SoundNames.calls
    (names : table.SoundNames)
    (uses : List Call) :
    (table.calls uses).SoundNames := by
  rw [calls_eq_meet]
  exact ⟨names.sound.allotAll _, names.marked.allotAll _⟩

/-- Known names are spelled by marked words that stand for them. -/
theorem SoundNames.resolves
    {met : List String}
    (names : table.SoundNames)
    (knows : table.Knows met [])
    (values : NameMap AttributeValue) :
    table.naming.Marks met [] ∧ table.naming.Resolves ⟨table.names.meanings, values⟩ met [] := by
  refine ⟨⟨fun name member => ?_, by simp⟩, ⟨fun name member => ?_, by simp⟩⟩
  · rcases knows.name name member with ⟨placeholder, known⟩
    exact isMarkedWord_naming_name names.marked known
  · rcases knows.name name member with ⟨placeholder, known⟩
    exact find?_naming_name names.sound names.marked known

/-- A rendered projection is read with what the names of any later table mean. -/
theorem SoundNames.projection_render
    {later : PlaceholderTable}
    {entries : List String}
    {text : String}
    (names : later.SoundNames)
    (extension : later.Extends (table.renderProjection entries).2)
    (rendered : (table.renderProjection entries).1 = some text)
    (values : NameMap AttributeValue) :
    ((Scope.start later.names.meanings values).projection text).1 =
      .ok (projectedPaths entries) := by
  have spelled := spells_renderProjection table entries
  have written : text = Path.spellAll later.naming (projectedPaths entries) := by
    rw [← spelled.text later extension, rendered, Option.getD_some]
  have knows := Extends.knows (spelled.table ▸ extension)
  rcases names.resolves knows values with ⟨marks, resolves⟩
  have parsed : ∀ path ∈ projectedPaths entries, path.isRooted ∧ path.isBounded := by
    intro path member
    rcases List.mem_map.mp member with ⟨name, -, rfl⟩
    exact ⟨Path.isRooted_parse name, Path.isBounded_parse name⟩
  have nonempty : projectedPaths entries ≠ [] := by
    intro none
    rw [(renderProjection_eq_none_iff table entries).mpr none] at rendered
    cases rendered
  have read : (Scope.start later.names.meanings values).projection
      (Path.spellAll later.naming (projectedPaths entries)) = _ :=
    Scope.projection_spellAll marks resolves (fun path member => (parsed path member).1)
      (fun path member => (parsed path member).2) nonempty
  rw [written, read]

/-! ## The names that entries list -/

/-- What stands between the commas of some entries, without the blanks around it. -/
def mentionedNames (entries : List String) : List String :=
  entries.flatMap fun entry =>
    (Text.split ',' entry.toList).map fun piece => String.ofList (Text.trim piece)

theorem projectedNames_eq (entries : List String) :
    projectedNames entries = ((mentionedNames entries).filter (· ≠ "")).eraseDups := by
  have blank (name : String) : (!name.isEmpty) = decide (name ≠ "") := by
    rw [Bool.eq_iff_iff, Bool.not_eq_true', decide_eq_true_iff, ne_eq, ← String.isEmpty_iff,
      Bool.not_eq_true]
  rw [projectedNames, mentionedNames]
  simp only [blank]

/-- Entries list no names if they mention blanks only. -/
theorem projectedPaths_eq_nil_iff (entries : List String) :
    projectedPaths entries = [] ↔ ∀ name ∈ mentionedNames entries, name = "" := by
  rw [projectedPaths, List.map_eq_nil_iff, projectedNames_eq]
  constructor
  · intro none name mentioned
    by_contra named
    have kept : name ∈ (mentionedNames entries).filter (· ≠ "") :=
      List.mem_filter.mpr ⟨mentioned, decide_eq_true named⟩
    have listed := List.mem_eraseDups.mpr kept
    rw [none] at listed
    cases listed
  · intro blank
    have none : (mentionedNames entries).filter (· ≠ "") = [] :=
      List.filter_eq_nil_iff.mpr fun name mentioned => by simp [blank name mentioned]
    rw [none]
    rfl

end PlaceholderTable

/-- A projection has a text if its entries mention a name.  The text is read back with
what the names of a table mean in the end, whatever the literals mean: as the paths of the
names between commas, without the blanks around them, each where it stands first. -/
theorem projection_read_back
    {table : PlaceholderTable}
    (opening : table.OpensNames)
    (earlier later : List PlaceholderTable.Call)
    (entries : List String) :
    let rendered := ((table.calls earlier).renderProjection entries).1
    let final := table.calls (earlier ++ .projection entries :: later)
    let mentioned := entries.flatMap fun entry =>
      (Text.split ',' entry.toList).map fun piece => String.ofList (Text.trim piece)
    (rendered = none ↔ ∀ name ∈ mentioned, name = "") ∧
      ∀ text, rendered = some text → ∀ values : NameMap AttributeValue,
        ((Scope.start final.names.meanings values).projection text).1 =
          .ok (((mentioned.filter (· ≠ "")).eraseDups).map Path.parse) := by
  intro rendered final mentioned
  constructor
  · exact ((table.calls earlier).renderProjection_eq_none_iff entries).trans
      (PlaceholderTable.projectedPaths_eq_nil_iff entries)
  · intro text isText values
    have extension : final.Extends ((table.calls earlier).renderProjection entries).2 := by
      have steps : final = ((table.calls earlier).call (.projection entries)).calls later :=
        List.foldl_append
      exact steps ▸ PlaceholderTable.extends_calls _ later
    have read := (opening.soundNames.calls _).projection_render extension isText values
    rw [read, PlaceholderTable.projectedPaths, PlaceholderTable.projectedNames_eq]
    rfl

/-- Names with dots, brackets and blanks, one of them mentioned twice, in a table that has
a placeholder for one of them and has rendered a condition before. -/
theorem projection_read_back_crooked :
    let table := PlaceholderTable.seeded (.ofList [("#n1", "Views[x]")]) ∅
    let before : Condition :=
      .compare (.path ⟨[.attribute "Info"]⟩) .equal (.value (.string "#n0,#n1"))
    let entries := [" Info.Tags[0][12] , Views[x]", ",", "Amazon S3,Views[x],Info..Rank[3"]
    let final := table.calls [.condition before, .projection entries, .name "Replies"]
    ∃ text,
      ((table.calls [.condition before]).renderProjection entries).1 = some text ∧
        ((Scope.start final.names.meanings ∅).projection text).1 =
          .ok [⟨[.attribute "Info", .attribute "Tags", .index 0, .index 12]⟩,
            ⟨[.attribute "Views[x]"]⟩, ⟨[.attribute "Amazon S3"]⟩,
            ⟨[.attribute "Info", .attribute "", .attribute "Rank[3"]⟩] := by
  intro table before entries final
  have opening : table.OpensNames :=
    .seeded _ _ (by decide +kernel) (by decide +kernel)
  rcases projection_read_back opening [.condition before] [.name "Replies"] entries with
    ⟨-, read⟩
  exact ⟨"#n0.#n2[0][12],#n1,#n3,#n0.#n4.#n5", by decide +kernel,
    (read _ (by decide +kernel) ∅).trans (by decide +kernel)⟩

end ItemTable
