import ItemTable.KeyCondition.Language
import ItemTable.Proofs.Condition.Spelling
import ItemTable.Proofs.Text.MarkedWord

/-!
# Uses of a placeholder table

A table is new or goes on from the placeholders of a request, and is then used
any number of times.  Each use makes the table meet names and literals and does
nothing else.  So the table stays sound, keeps every placeholder that it gave
out, and gives out only placeholders that expressions can spell.
-/

namespace ItemTable

/-! ## Placeholders that expressions can spell -/

/-- A marked word stays one with digits behind it. -/
theorem Text.isMarkedWord_candidate
    {mark : Char}
    {stem : String}
    (marked : isMarkedWord mark stem)
    (number : Nat) :
    isMarkedWord mark (Allotment.candidate stem number) := by
  rcases isMarkedWord_iff.1 marked with ⟨word, equal, nonempty, chars⟩
  refine isMarkedWord_iff.2 ⟨word ++ Nat.toDigits 10 number, ?_, by simp [nonempty], ?_⟩
  · simp [Allotment.candidate, equal]
  · intro char member
    rcases List.mem_append.1 member with inWord | inDigits
    · exact chars char inWord
    · have digit : char.isDigit := Nat.isDigit_of_mem_toDigits (by decide) (by decide) inDigits
      simp [isWordChar, Char.isAlphanum, digit]

namespace Allotment

variable {α : Type} [DecidableEq α]

/-- Every placeholder that was or will be given out is a marked word. -/
structure Marked (mark : Char) (allotment : Allotment α) : Prop where
  stem : Text.isMarkedWord mark allotment.stem
  assigned : ∀ entry ∈ allotment.assigned, Text.isMarkedWord mark entry.2

omit [DecidableEq α] in
theorem Marked.start
    {mark : Char}
    {stem : String}
    (marked : Text.isMarkedWord mark stem) :
    (Allotment.start stem : Allotment α).Marked mark :=
  ⟨marked, fun _ member => absurd member List.not_mem_nil⟩

theorem Marked.seeded
    {mark : Char}
    {stem : String}
    {meanings : NameMap α}
    (stemMarked : Text.isMarkedWord mark stem)
    (marked : ∀ placeholder ∈ meanings.names, Text.isMarkedWord mark placeholder) :
    (Allotment.seeded stem meanings).Marked mark := by
  refine ⟨stemMarked, fun entry member => marked entry.2 ?_⟩
  have there := List.mem_map_of_mem (f := Prod.fst) (mem_assigned_seeded member)
  rwa [NameMap.map_fst_toList] at there

theorem Marked.allot
    {mark : Char}
    {allotment : Allotment α}
    (marked : allotment.Marked mark)
    (key : α) :
    (allotment.allot key).2.Marked mark := by
  rw [Allotment.allot]
  split
  next => exact marked
  next =>
    refine ⟨marked.stem, fun entry member => ?_⟩
    rcases List.mem_append.1 member with known | here
    · exact marked.assigned entry known
    · rw [List.mem_singleton.1 here]
      exact Text.isMarkedWord_candidate marked.stem _

theorem Marked.allotAll
    {mark : Char}
    {allotment : Allotment α}
    (marked : allotment.Marked mark)
    (keys : List α) :
    (allotment.allotAll keys).Marked mark := by
  induction keys generalizing allotment with
  | nil => exact marked
  | cons key keys ih => exact ih (marked.allot key)

end Allotment

namespace PlaceholderTable

/-! ## How a table begins -/

/-- A new table, or one that goes on from placeholders with one meaning each. -/
inductive Opening : PlaceholderTable → Prop where
  | start : Opening start
  | seeded
      (names : NameMap String)
      (values : NameMap AttributeValue)
      (distinctNames : (names.toList.map Prod.snd).Nodup)
      (distinctValues : (values.toList.map Prod.snd).Nodup)
      (markedNames : ∀ placeholder ∈ names.names, Text.isMarkedWord '#' placeholder)
      (markedValues : ∀ placeholder ∈ values.names, Text.isMarkedWord ':' placeholder) :
      Opening (seeded names values)

/-- Names and literals have one placeholder each, which expressions can spell. -/
structure Sound (table : PlaceholderTable) : Prop where
  names : table.names.Sound
  values : table.values.Sound
  markedNames : table.names.Marked '#'
  markedValues : table.values.Marked ':'

/-- A table begins sound. -/
theorem Opening.sound
    {table : PlaceholderTable}
    (opening : table.Opening) :
    table.Sound := by
  have nameStem : Text.isMarkedWord '#' "#n" := by decide
  have valueStem : Text.isMarkedWord ':' ":v" := by decide
  cases opening with
  | start =>
      exact ⟨.start _, .start _, .start nameStem, .start valueStem⟩
  | seeded names values _ _ markedNames markedValues =>
      exact ⟨.seeded _ names, .seeded _ values, .seeded nameStem markedNames,
        .seeded valueStem markedValues⟩

theorem Sound.meet
    {table : PlaceholderTable}
    (sound : table.Sound)
    (names : List String)
    (values : List AttributeValue) :
    (table.meet names values).Sound :=
  ⟨sound.names.allotAll names, sound.values.allotAll values,
    sound.markedNames.allotAll names, sound.markedValues.allotAll values⟩

/-! ## How a table is used -/

/-- A use of a table. -/
inductive Call where
  | name (name : String)
  | value (value : AttributeValue)
  | path (path : Path)
  | condition (condition : Condition)
  | keyCondition (condition : Condition)
  | projection (entries : List String)

/-- The table after a use.  A key condition that is refused leaves it alone. -/
def call (table : PlaceholderTable) : Call → PlaceholderTable
  | .name name => (table.name name).2
  | .value value => (table.value value).2
  | .path path => (table.renderPath path).2
  | .condition condition => (table.render condition).2
  | .keyCondition condition =>
      match table.renderKeyCondition condition with
      | .ok (_, table) => table
      | .error _ => table
  | .projection entries => (table.renderProjection entries).2

/-- The table after some uses. -/
def calls (table : PlaceholderTable) (calls : List Call) : PlaceholderTable :=
  calls.foldl call table

namespace Call

/-- The attribute names that a use mentions, from left to right; a key condition that is
refused mentions none. -/
def names : Call → List String
  | .name mentioned => [mentioned]
  | .value _ => []
  | .path place => place.names
  | .condition tree => tree.names
  | .keyCondition tree =>
      match tree.checkKey with
      | .ok _ => tree.names
      | .error _ => []
  | .projection entries => (projectedPaths entries).flatMap Path.names

/-- The literals that a use mentions, from left to right. -/
def literals : Call → List AttributeValue
  | .name _ | .path _ | .projection _ => []
  | .value literal => [literal]
  | .condition tree => tree.literals
  | .keyCondition tree =>
      match tree.checkKey with
      | .ok _ => tree.literals
      | .error _ => []

end Call

/-- A use makes the table meet the names and literals that it mentions. -/
theorem call_eq_meet (table : PlaceholderTable) (use : Call) :
    table.call use = table.meet use.names use.literals := by
  cases use with
  | name name => exact (Spells.name table name).table
  | value value => exact (Spells.value table value).table
  | path path => exact (spells_renderPath table path).table
  | condition condition => exact (spells_render table condition).table
  | keyCondition condition =>
      rw [call, renderKeyCondition, Call.names, Call.literals]
      cases condition.checkKey with
      | error => rfl
      | ok => exact (spells_render table condition).table
  | projection entries => exact (spells_renderProjection table entries).table

/-- Any number of uses make the table meet the names and literals of one after the other. -/
theorem calls_eq_meet (table : PlaceholderTable) (uses : List Call) :
    table.calls uses = table.meet (uses.flatMap Call.names) (uses.flatMap Call.literals) := by
  induction uses generalizing table with
  | nil => rfl
  | cons use uses ih =>
      rw [List.flatMap_cons, List.flatMap_cons, meet_append, ← call_eq_meet]
      exact ih (table.call use)

theorem Sound.calls
    {table : PlaceholderTable}
    (sound : table.Sound)
    (uses : List Call) :
    (table.calls uses).Sound := by
  rw [calls_eq_meet]
  exact sound.meet _ _

theorem extends_calls (table : PlaceholderTable) (uses : List Call) :
    (table.calls uses).Extends table := by
  rw [calls_eq_meet]
  exact table.extends_meet _ _

end PlaceholderTable

end ItemTable
