import ItemTable.Proofs.KeyOrder
import ItemTable.Proofs.NameMap
import Mathlib.Data.List.Perm.Subperm

/-!
# Keys and nothing else

A request that names an item does so by its key attributes alone.  As long as the key
attributes have different names, a map that holds a key holds nothing else exactly if it
has as many entries as there are key attributes.
-/

namespace ItemTable.KeySchema

/-- The sort key has another name than the partition key. -/
def HasDistinctNames (schema : KeySchema) : Prop :=
  ∀ member ∈ schema.sort, member.name ≠ schema.partition.name

/-- A map holds a key and no other attributes. -/
structure IsKeyMap (schema : KeySchema) (map : Item) (key : PrimaryKey) : Prop where
  hasKey : schema.HasKey map key
  only : ∀ name ∈ map.names, schema.isKey name

variable {schema : KeySchema} {item map : Item} {key : PrimaryKey}

theorem nodup_attributes (distinct : schema.HasDistinctNames) :
    (schema.attributes.map KeyAttribute.name).Nodup := by
  rw [attributes]
  cases sort : schema.sort with
  | none => simp
  | some member =>
      have different := distinct member sort
      simp [different.symm]

theorem isKey_iff
    {name : String} :
    schema.isKey name ↔ name ∈ schema.attributes.map KeyAttribute.name := by
  simp [isKey]

theorem mem_names_of_holds
    {member : KeyAttribute}
    {value : KeyValue}
    (holds : member.Holds item value) :
    member.name ∈ item.names := by
  rcases holds with ⟨stored, found, -⟩
  exact NameMap.find?_isSome_iff.mp (Option.isSome_of_eq_some found)

/-- A map with a key holds nothing else exactly if it has as many entries as there are key
attributes. -/
theorem HasKey.size_eq_iff
    (hasKey : schema.HasKey map key)
    (distinct : schema.HasDistinctNames) :
    map.size = schema.attributes.length ↔ ∀ name ∈ map.names, schema.isKey name := by
  have included : schema.attributes.map KeyAttribute.name ⊆ map.names := by
    intro name listed
    rcases List.mem_map.mp listed with ⟨member, isAttribute, rfl⟩
    rcases exists_hasKey_iff.mp ⟨key, hasKey⟩ member isAttribute with ⟨value, holds⟩
    exact mem_names_of_holds holds
  have part := List.subperm_of_subset (nodup_attributes distinct) included
  rw [NameMap.size, ← List.length_map KeyAttribute.name]
  constructor
  · intro exact name listed
    exact isKey_iff.mpr ((part.perm_of_length_le (Nat.le_of_eq exact)).mem_iff.mpr listed)
  · intro only
    have whole : map.names ⊆ schema.attributes.map KeyAttribute.name :=
      fun name listed => isKey_iff.mp (only name listed)
    exact Nat.le_antisymm (List.subperm_of_subset map.nodup_names whole).length_le part.length_le

/-- The key that a map is, if it is one and the key attributes have different names. -/
theorem exactKey_eq_ok_iff
    (distinct : schema.HasDistinctNames) :
    schema.exactKey map = .ok key ↔ schema.IsKeyMap map key := by
  rw [exactKey]
  constructor
  · intro keyed
    split at keyed
    next exact =>
      have hasKey := primaryKey_eq_ok_iff.mp keyed
      exact ⟨hasKey, (hasKey.size_eq_iff distinct).mp exact⟩
    next => cases keyed
  · rintro ⟨hasKey, only⟩
    rw [if_pos ((hasKey.size_eq_iff distinct).mpr only)]
    exact primaryKey_eq_ok_iff.mpr hasKey

/-- A map holds the key attributes of an item and nothing else. -/
def IsKeyOf (schema : KeySchema) (item map : Item) : Prop :=
  ∀ name, map.find? name = if schema.isKey name then item.find? name else none

theorem IsKeyOf.exactKey_eq
    (isKeyOf : schema.IsKeyOf item map)
    (distinct : schema.HasDistinctNames)
    (hasKey : schema.HasKey item key) :
    schema.exactKey map = .ok key := by
  rw [exactKey_eq_ok_iff distinct]
  constructor
  · rw [← primaryKey_eq_ok_iff] at hasKey ⊢
    rw [← hasKey]
    apply primaryKey_congr
    intro name isKey
    rw [isKeyOf, if_pos isKey]
  · intro name listed
    by_contra other
    have found := NameMap.find?_isSome_iff.mpr listed
    rw [isKeyOf, if_neg other] at found
    cases found

end ItemTable.KeySchema
