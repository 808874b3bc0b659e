import ItemTable.Proofs.Placeholder.Calls
import ItemTable.Proofs.Placeholder.Numbering

/-!
# Whole passes over a placeholder table

A pass goes on from the placeholders of a request and uses its table any number of times.
It gives out placeholders as if the names and the literals of all its uses were met one
after the other: each has one placeholder from its first mention to the end, no two share
one, and what the placeholders mean in the end are those to go on from and the new ones.

Nothing is asked of the placeholders to go on from but that no two of them mean the same.
-/

namespace ItemTable

namespace Allotment

open AssociationList

variable {α : Type} [DecidableEq α]

/-! ## What is given out -/

/-- What is written for keys, and what placeholders mean, once some keys have been met by an
allotment that goes on from the placeholders of `seed`. -/
structure GivesOut
    (stem : String)
    (seed : NameMap α)
    (met : List α)
    (write : α → String)
    (meanings : NameMap α) : Prop where
  /-- A key with a placeholder to go on from keeps it. -/
  seeded : ∀ placeholder key, seed.find? placeholder = some key → write key = placeholder
  /-- Distinct keys have distinct placeholders. -/
  distinct : Set.InjOn write {key | key ∈ met ∨ key ∈ seed.toList.map Prod.snd}
  /-- A key that is new when it is met gets the smallest number that no placeholder to go on
  from and none that was given out before has. -/
  smallest : ∀ before key behind,
    met = before ++ key :: behind → key ∉ before → key ∉ seed.toList.map Prod.snd →
      ∃ number, write key = candidate stem number ∧
        IsLeast {free | candidate stem free ∉ seed.names ∧
          candidate stem free ∉ before.map write} number
  /-- The placeholders to go on from keep their meanings, each new key is meant by its own
  placeholder, and nothing else has a meaning. -/
  meanings : ∀ placeholder key, meanings.find? placeholder = some key ↔
    seed.find? placeholder = some key ∨
      key ∈ met ∧ key ∉ seed.toList.map Prod.snd ∧ write key = placeholder

section

variable {stem : String} {seed : NameMap α} {met : List α} {key : α} {placeholder : String}

/-- What an allotment writes for a key. -/
def written (allotment : Allotment α) (key : α) : String :=
  (allotment.assigned.lookup key).getD ""

theorem written_of_lookup
    {allotment : Allotment α}
    (known : allotment.assigned.lookup key = some placeholder) :
    allotment.written key = placeholder := by
  rw [written, known, Option.getD_some]

theorem lookup_written
    {allotment : Allotment α}
    (known : key ∈ allotment.assigned.map Prod.fst) :
    allotment.assigned.lookup key = some (allotment.written key) := by
  rcases Option.isSome_iff_exists.mp (lookup_isSome_iff_mem.mpr known) with ⟨placeholder, found⟩
  rw [written_of_lookup found, found]

theorem Extends.written_eq
    {later earlier : Allotment α}
    (extension : later.Extends earlier)
    (known : key ∈ earlier.assigned.map Prod.fst) :
    later.written key = earlier.written key :=
  written_of_lookup (extension key _ (lookup_written known))

/-- The keys with placeholders to go on from begin with these. -/
theorem lookup_seeded_iff (distinct : (seed.toList.map Prod.snd).Nodup) :
    (seeded stem seed).assigned.lookup key = some placeholder ↔
      seed.find? placeholder = some key := by
  rw [← (Sound.seeded stem seed).find?_meanings, meanings_seeded distinct]

theorem mem_keys_seeded_iff (distinct : (seed.toList.map Prod.snd).Nodup) :
    key ∈ (seeded stem seed).assigned.map Prod.fst ↔ key ∈ seed.toList.map Prod.snd := by
  rw [← lookup_isSome_iff_mem, Option.isSome_iff_exists, List.mem_map]
  simp only [lookup_seeded_iff distinct, NameMap.find?_eq_some_iff]
  constructor
  · rintro ⟨placeholder, member⟩
    exact ⟨_, member, rfl⟩
  · rintro ⟨⟨placeholder, _⟩, member, rfl⟩
    exact ⟨placeholder, member⟩

/-- A key with a placeholder to go on from never has another one. -/
theorem find?_of_lookup
    (distinct : (seed.toList.map Prod.snd).Nodup)
    (inSeed : key ∈ seed.toList.map Prod.snd)
    (found : ((seeded stem seed).allotAll met).assigned.lookup key = some placeholder) :
    seed.find? placeholder = some key := by
  have known : key ∈ (seeded stem seed).assigned.map Prod.fst :=
    (mem_keys_seeded_iff distinct).mpr inSeed
  have first := lookup_written known
  have same := (extends_allotAll _ met key _ first).symm.trans found
  rwa [Option.some.inj same, lookup_seeded_iff distinct] at first

theorem mem_keys_iff (distinct : (seed.toList.map Prod.snd).Nodup) :
    key ∈ ((seeded stem seed).allotAll met).assigned.map Prod.fst ↔
      key ∈ met ∨ key ∈ seed.toList.map Prod.snd := by
  rw [mem_keys_allotAll, mem_keys_seeded_iff distinct, or_comm]

/-- Beside the placeholders to go on from, those of the keys that were met are given out. -/
theorem mem_placeholders_iff
    (distinct : (seed.toList.map Prod.snd).Nodup)
    (new : placeholder ∉ seed.names) :
    placeholder ∈ ((seeded stem seed).allotAll met).assigned.map Prod.snd ↔
      placeholder ∈ met.map ((seeded stem seed).allotAll met).written := by
  constructor
  · intro given
    rcases List.mem_map.mp given with ⟨⟨key, _⟩, member, rfl⟩
    have found := lookup_of_mem ((Sound.seeded stem seed).allotAll met).keys member
    have known := List.mem_map_of_mem (f := Prod.fst) member
    refine List.mem_map.mpr ⟨key, ?_, written_of_lookup found⟩
    refine ((mem_keys_iff distinct).mp known).resolve_right fun inSeed => ?_
    have before := find?_of_lookup distinct inSeed found
    exact new (NameMap.find?_isSome_iff.mp (Option.isSome_of_eq_some before))
  · intro isWritten
    rcases List.mem_map.mp isWritten with ⟨key, isMet, rfl⟩
    have known : key ∈ ((seeded stem seed).allotAll met).assigned.map Prod.fst :=
      (mem_keys_iff distinct).mpr (.inl isMet)
    exact List.mem_map_of_mem (f := Prod.snd) (mem_of_lookup (lookup_written known))

/-- A key that is new when it is met gets the smallest number that is free. -/
theorem isLeast_of_new
    (distinct : (seed.toList.map Prod.snd).Nodup)
    {before behind : List α}
    (notBefore : key ∉ before)
    (notSeeded : key ∉ seed.toList.map Prod.snd) :
    let final := (seeded stem seed).allotAll (before ++ key :: behind)
    ∃ number, final.written key = candidate stem number ∧
      IsLeast {free | candidate stem free ∉ seed.names ∧
        candidate stem free ∉ before.map final.written} number := by
  intro final
  let reached := (seeded stem seed).allotAll before
  have steps : final = (reached.allot key).2.allotAll behind := allotAll_append _ _ _
  have unknown : reached.assigned.lookup key = none := by
    rw [lookup_eq_none_iff_not_mem, mem_keys_iff distinct]
    tauto
  rcases allot_of_new unknown with ⟨number, counts, equal⟩
  have stems : reached.stem = stem := stem_allotAll _ _
  have given : (reached.allot key).1 = candidate stem number := by rw [equal, stems]
  refine ⟨number, ?_, ?_⟩
  · rw [steps, ← given]
    exact written_of_lookup (extends_allotAll _ behind key _ (lookup_allot reached key))
  · have least := ((Gapless.seeded stem seed).allotAll before).isLeast counts
    have extension : final.Extends reached :=
      steps ▸ (extends_allotAll _ behind).trans (extends_allot reached key)
    have kept : before.map reached.written = before.map final.written := by
      refine List.map_congr_left fun key isMet => ?_
      exact (extension.written_eq ((mem_keys_iff distinct).mpr (.inl isMet))).symm
    convert least using 1
    ext free
    rw [← kept, stems]
    exact and_congr_right fun new => not_congr (mem_placeholders_iff distinct new).symm

/-- An allotment gives out placeholders for all keys that it meets. -/
theorem givesOut
    (distinct : (seed.toList.map Prod.snd).Nodup)
    (met : List α) :
    GivesOut stem seed met ((seeded stem seed).allotAll met).written
      ((seeded stem seed).allotAll met).meanings := by
  have sound := (Sound.seeded stem seed).allotAll met
  have extension := (seeded stem seed).extends_allotAll met
  constructor
  case seeded =>
    intro placeholder key found
    exact written_of_lookup (extension key _ ((lookup_seeded_iff distinct).mpr found))
  case distinct =>
    intro first firstKnown second secondKnown same
    have firstMeant :=
      sound.find?_meanings.mpr (lookup_written ((mem_keys_iff distinct).mpr firstKnown))
    have secondMeant :=
      sound.find?_meanings.mpr (lookup_written ((mem_keys_iff distinct).mpr secondKnown))
    rw [same, secondMeant] at firstMeant
    exact (Option.some.inj firstMeant).symm
  case smallest =>
    rintro before key behind rfl notBefore notSeeded
    exact isLeast_of_new distinct notBefore notSeeded
  case meanings =>
    intro placeholder key
    rw [sound.find?_meanings]
    constructor
    · intro found
      by_cases inSeed : key ∈ seed.toList.map Prod.snd
      · exact .inl (find?_of_lookup distinct inSeed found)
      · have known := lookup_isSome_iff_mem.mp (Option.isSome_of_eq_some found)
        exact .inr ⟨((mem_keys_iff distinct).mp known).resolve_right inSeed, inSeed,
          written_of_lookup found⟩
    · rintro (found | ⟨isMet, -, rfl⟩)
      · exact extension key _ ((lookup_seeded_iff distinct).mpr found)
      · exact lookup_written ((mem_keys_iff distinct).mpr (.inl isMet))

end

/-- Whenever a key has no placeholder yet, counting up comes to an end, and the key gets the
placeholder that is found. -/
def FindsFree (allotment : Allotment α) : Prop :=
  ∀ key, allotment.assigned.lookup key = none →
    ∃ number, CountsTo allotment.stem allotment.taken allotment.next number ∧
      (allotment.allot key).1 = candidate allotment.stem number

theorem findsFree (allotment : Allotment α) : allotment.FindsFree := by
  intro key new
  rcases allot_of_new new with ⟨number, counts, equal⟩
  exact ⟨number, counts, by rw [equal]⟩

end Allotment

namespace PlaceholderTable

/-! ## What a pass answers -/

/-- What a use answers: a text, no text for a projection without names, or why a key
condition is refused. -/
def answer
    (table : PlaceholderTable) :
    Call → Except KeyConditionFault (Option String)
  | .name mentioned => .ok (some (table.name mentioned).1)
  | .value literal => .ok (some (table.value literal).1)
  | .path place => .ok (some (table.renderPath place).1)
  | .condition tree => .ok (some (table.render tree).1)
  | .keyCondition tree => (table.renderKeyCondition tree).map fun rendered => some rendered.1
  | .projection entries => .ok (table.renderProjection entries).1

/-- The answer to a use in which names and literals are written in a given way. -/
def Call.spell (naming : Naming) : Call → Except KeyConditionFault (Option String)
  | .name mentioned => .ok (some (naming.name mentioned))
  | .value literal => .ok (some (naming.value literal))
  | .path place => .ok (some (place.spell naming))
  | .condition tree => .ok (some (tree.spell naming))
  | .keyCondition tree => tree.checkKey.map fun _ => some (tree.spell naming)
  | .projection entries =>
      .ok (if projectedPaths entries = [] then
        none
      else
        some (Path.spellAll naming (projectedPaths entries)))

/-- The answer to a use is written with the placeholders of every later table. -/
theorem answer_eq_spell
    {table later : PlaceholderTable}
    {use : Call}
    (extension : later.Extends (table.call use)) :
    table.answer use = use.spell later.naming := by
  cases use with
  | name mentioned =>
      rw [answer, Call.spell, (Spells.name table mentioned).text later extension]
  | value literal =>
      rw [answer, Call.spell, (Spells.value table literal).text later extension]
  | path place =>
      rw [answer, Call.spell, (spells_renderPath table place).text later extension]
  | condition tree =>
      rw [answer, Call.spell, (spells_render table tree).text later extension]
  | keyCondition tree =>
      rw [call, renderKeyCondition] at extension
      rw [answer, Call.spell, renderKeyCondition]
      cases checked : tree.checkKey with
      | error fault => rfl
      | ok =>
          rw [checked] at extension
          exact congrArg (Except.ok ∘ some) ((spells_render table tree).text later extension)
  | projection entries =>
      have written := (spells_renderProjection table entries).text later extension
      have none_iff := renderProjection_eq_none_iff table entries
      rw [answer, Call.spell]
      split
      next none => rw [none_iff.mpr none]
      next some =>
        rcases Option.ne_none_iff_exists'.mp (mt none_iff.mp some) with ⟨text, rendered⟩
        rw [← written, rendered, Option.getD_some]

/-- A key condition that is refused gives out nothing. -/
theorem call_of_refused
    {condition : Condition}
    {fault : KeyConditionFault}
    (table : PlaceholderTable)
    (refused : condition.checkKey = .error fault) :
    table.call (.keyCondition condition) = table := by
  rw [call_eq_meet, Call.names, Call.literals, refused, meet_nil]

/-- A pass that goes on from placeholders no two of which mean the same finds a placeholder
whenever it counts up to one, gives out placeholders for the names and the literals of its
uses as they are mentioned, and writes these in all its answers.  A key condition that is
refused gives out nothing. -/
theorem pass_without_collisions
    {names : NameMap String}
    {values : NameMap AttributeValue}
    (distinctNames : (names.toList.map Prod.snd).Nodup)
    (distinctValues : (values.toList.map Prod.snd).Nodup)
    (uses : List Call) :
    let table := seeded names values
    let final := table.calls uses
    (∀ reached : PlaceholderTable, reached.names.FindsFree ∧ reached.values.FindsFree) ∧
      Allotment.GivesOut "#n" names (uses.flatMap Call.names) final.naming.name
        final.names.meanings ∧
      Allotment.GivesOut ":v" values (uses.flatMap Call.literals) final.naming.value
        final.values.meanings ∧
      (∀ earlier use later, uses = earlier ++ use :: later →
        (table.calls earlier).answer use = use.spell final.naming) ∧
      ∀ earlier condition fault later,
        uses = earlier ++ .keyCondition condition :: later →
        condition.checkKey = .error fault →
          table.calls (earlier ++ [.keyCondition condition]) = table.calls earlier ∧
            (table.calls earlier).answer (.keyCondition condition) = .error fault := by
  intro table final
  have whole : final = table.meet (uses.flatMap Call.names) (uses.flatMap Call.literals) :=
    table.calls_eq_meet uses
  refine ⟨fun reached => ⟨reached.names.findsFree, reached.values.findsFree⟩, ?_, ?_, ?_, ?_⟩
  · rw [whole]
    exact Allotment.givesOut distinctNames _
  · rw [whole]
    exact Allotment.givesOut distinctValues _
  · rintro earlier use later rfl
    have steps : final = ((table.calls earlier).call use).calls later := List.foldl_append
    exact answer_eq_spell (steps ▸ extends_calls _ later)
  · rintro earlier condition fault later rfl refused
    have steps : table.calls (earlier ++ [.keyCondition condition]) =
        (table.calls earlier).call (.keyCondition condition) := List.foldl_append
    refine ⟨steps.trans (call_of_refused _ refused), ?_⟩
    rw [answer, renderKeyCondition, refused]
    rfl

/-- Placeholders to go on from that no expression can spell, beside some that have numbers;
a refused key condition; and names that are met again. -/
theorem pass_without_collisions_crooked :
    let names : NameMap String := .ofList [("#n1", "Views"), ("n2", "Tags")]
    let values : NameMap AttributeValue := .ofList [("", .number "1"), (":v0", .string "#n0")]
    let refused : Condition :=
      .not (.compare (.path ⟨[.attribute "Replies"]⟩) .equal (.value (.bool true)))
    let uses : List Call :=
      [.name "Text", .keyCondition refused, .projection ["Views.Text, Author"],
        .condition (.compare (.path ⟨[.attribute "Tags"]⟩) .less (.value (.number "2")))]
    let final := (seeded names values).calls uses
    (names.toList.map Prod.snd).Nodup ∧ (values.toList.map Prod.snd).Nodup ∧
      final.names.meanings.find? "n2" = some "Tags" ∧
      final.names.meanings.find? "#n2" = some "Author" ∧
      (∀ placeholder, final.names.meanings.find? placeholder ≠ some "Replies") ∧
      final.values.meanings.find? ":v1" = some (.number "2") := by
  intro names values refused uses final
  have distinctNames : (names.toList.map Prod.snd).Nodup := by decide +kernel
  have distinctValues : (values.toList.map Prod.snd).Nodup := by decide +kernel
  rcases pass_without_collisions distinctNames distinctValues uses with
    ⟨-, forNames, forValues, -, -⟩
  refine ⟨distinctNames, distinctValues, ?_, ?_, ?_, ?_⟩
  · exact (forNames.meanings _ _).mpr (.inl (by decide +kernel))
  · exact (forNames.meanings _ _).mpr
      (.inr ⟨by decide +kernel, by decide +kernel, by decide +kernel⟩)
  · intro placeholder found
    rcases (forNames.meanings _ _).mp found with before | ⟨isMet, -⟩
    · have meant : "Replies" ∈ names.toList.map Prod.snd :=
        List.mem_map_of_mem (f := Prod.snd) (NameMap.find?_eq_some_iff.mp before)
      exact absurd meant (by decide +kernel)
    · exact absurd isMet (by decide +kernel)
  · exact (forValues.meanings _ _).mpr
      (.inr ⟨by decide +kernel, by decide +kernel, by decide +kernel⟩)

end PlaceholderTable

end ItemTable
