import ItemTable.Proofs.Expression.Enlarging
import ItemTable.Proofs.Expression.RoundTrip

/-!
# Placeholders to go on from

Placeholders are legible if no two of them mean the same and expressions can spell all of
them.  A table that goes on from legible placeholders explains each of them as before,
and what a sound table explains is legible, so that another table can go on from there.
-/

namespace ItemTable

/-- No two placeholders mean the same, and expressions can spell all of them. -/
structure References.IsLegible (references : References) : Prop where
  distinctNames : ∀ first second name,
    references.names.find? first = some name → references.names.find? second = some name →
      first = second
  distinctValues : ∀ first second value,
    references.values.find? first = some value → references.values.find? second = some value →
      first = second
  markedNames : ∀ placeholder ∈ references.names.names, Text.isMarkedWord '#' placeholder
  markedValues : ∀ placeholder ∈ references.values.names, Text.isMarkedWord ':' placeholder

theorem References.isLegible_empty : References.IsLegible ⟨∅, ∅⟩ where
  distinctNames _ _ _ found := by simp at found
  distinctValues _ _ _ found := by simp at found
  markedNames _ named := absurd named List.not_mem_nil
  markedValues _ named := absurd named List.not_mem_nil

namespace References.IsLegible

variable {references : References}

/-- A table can go on from legible placeholders. -/
theorem opening (legible : references.IsLegible) :
    (PlaceholderTable.seeded references.names references.values).Opening :=
  .seeded references.names references.values
    (NameMap.nodup_map_snd_toList_iff.mpr legible.distinctNames)
    (NameMap.nodup_map_snd_toList_iff.mpr legible.distinctValues)
    legible.markedNames legible.markedValues

/-- A table that goes on from legible placeholders explains them as before. -/
theorem references_seeded (legible : references.IsLegible) :
    (PlaceholderTable.seeded references.names references.values).references = references := by
  have names : (Allotment.seeded "#n" references.names).meanings = references.names :=
    Allotment.meanings_seeded (NameMap.nodup_map_snd_toList_iff.mpr legible.distinctNames)
  have values : (Allotment.seeded ":v" references.values).meanings = references.values :=
    Allotment.meanings_seeded (NameMap.nodup_map_snd_toList_iff.mpr legible.distinctValues)
  exact congrArg₂ References.mk names values

end References.IsLegible

namespace Allotment

variable {α : Type} [DecidableEq α] {allotment : Allotment α}

/-- All placeholders with a meaning are marked words. -/
theorem Marked.meanings
    {mark : Char}
    (marked : allotment.Marked mark)
    (sound : allotment.Sound) :
    ∀ placeholder ∈ allotment.meanings.names, Text.isMarkedWord mark placeholder := by
  intro placeholder named
  rcases sound.mem_names_meanings.mp named with ⟨key, assigned⟩
  exact marked.assigned _ (AssociationList.mem_of_lookup assigned)

/-- A later allotment explains whatever an earlier one explains. -/
theorem Extends.find?_meanings_eq_some
    {later : Allotment α}
    (extension : later.Extends allotment)
    (laterSound : later.Sound)
    (sound : allotment.Sound)
    (placeholder : String)
    (key : α)
    (meaning : allotment.meanings.find? placeholder = some key) :
    later.meanings.find? placeholder = some key := by
  rw [sound.find?_meanings] at meaning
  exact laterSound.find?_meanings.mpr (extension key placeholder meaning)

end Allotment

namespace PlaceholderTable

variable {table later : PlaceholderTable}

/-- What a sound table explains is legible. -/
theorem Sound.isLegible (sound : table.Sound) : table.references.IsLegible where
  distinctNames := sound.names.find?_meanings_injective
  distinctValues := sound.values.find?_meanings_injective
  markedNames := sound.markedNames.meanings sound.names
  markedValues := sound.markedValues.meanings sound.values

/-- A later table explains whatever an earlier one explains. -/
theorem Extends.within
    (extension : later.Extends table)
    (laterSound : later.Sound)
    (sound : table.Sound) :
    table.references.Within later.references where
  names := extension.names.find?_meanings_eq_some laterSound.names sound.names
  values := extension.values.find?_meanings_eq_some laterSound.values sound.values

end PlaceholderTable

end ItemTable
