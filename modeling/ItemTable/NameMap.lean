/-!
# Maps from names

Items, placeholder tables and catalogues are finite maps whose keys are names.
A `NameMap` keeps its names in increasing order and one value for each, so two
maps are equal exactly when they hold the same values under the same names.

The view of a map is `NameMap.toList`, its entries in the order of the names.
-/

namespace ItemTable

/-- A finite map from names: the names in increasing order, a value for each. -/
structure NameMap (α : Type) where
  names : List String
  increasing : names.Pairwise (· < ·)
  value : Fin names.length → α

namespace NameMap

variable {α β ε : Type}

/-- The entries, in increasing order of their names. -/
def toList (map : NameMap α) : List (String × α) :=
  List.ofFn fun index => (map.names.get index, map.value index)

/-- The map with the given entries, which are in order already. -/
def ofIncreasing
    (entries : List (String × α))
    (increasing : (entries.map Prod.fst).Pairwise (· < ·)) :
    NameMap α where
  names := entries.map Prod.fst
  increasing := increasing
  value index := (entries.get (index.cast (by simp))).2

/-- The entries have the names of the map, in order. -/
theorem map_fst_toList (map : NameMap α) :
    map.toList.map Prod.fst = map.names := by
  apply List.ext_get <;> simp [toList]

/-- The entries of a map from entries are those entries. -/
@[simp]
theorem toList_ofIncreasing
    (entries : List (String × α))
    (increasing : (entries.map Prod.fst).Pairwise (· < ·)) :
    (ofIncreasing entries increasing).toList = entries := by
  apply List.ext_get <;> simp [toList, ofIncreasing]

/-- A map is determined by its entries. -/
theorem toList_injective
    {left right : NameMap α}
    (equal : left.toList = right.toList) :
    left = right := by
  obtain ⟨leftNames, leftIncreasing, leftValue⟩ := left
  obtain ⟨rightNames, rightIncreasing, rightValue⟩ := right
  have sameNames : leftNames = rightNames := by
    simpa only [map_fst_toList] using congrArg (List.map Prod.fst) equal
  subst sameNames
  have sameValue : leftValue = rightValue := by
    funext index
    simpa [toList] using congrArg (fun entries => entries[index.val]?) equal
  subst sameValue
  rfl

instance [DecidableEq α] : DecidableEq (NameMap α) := fun left right =>
  decidable_of_iff (left.toList = right.toList)
    ⟨toList_injective, congrArg toList⟩

/-- The map without entries. -/
def empty : NameMap α :=
  ofIncreasing [] .nil

instance : EmptyCollection (NameMap α) := ⟨empty⟩

instance : Inhabited (NameMap α) := ⟨empty⟩

/-- The number of entries. -/
def size (map : NameMap α) : Nat :=
  map.names.length

/-- Whether the map has no entries. -/
def isEmpty (map : NameMap α) : Bool :=
  map.names.isEmpty

/-- The value under `name`. -/
def find? (map : NameMap α) (name : String) : Option α :=
  map.toList.lookup name

/-- Whether the map has an entry under `name`. -/
def contains (map : NameMap α) (name : String) : Bool :=
  map.names.contains name

/-- The value at a place is the one under the name there. -/
theorem find?_get
    (map : NameMap α)
    (index : Fin map.names.length) :
    map.find? (map.names.get index) = some (map.value index) := by
  obtain ⟨names, increasing, value⟩ := map
  have distinct : names.Nodup :=
    List.Pairwise.imp (fun less => String.ne_of_lt less) increasing
  have first :
      ∀ (entries : List (String × α)) (place : Nat) (name : String) (found : α),
        (entries.map Prod.fst).Nodup →
        entries[place]? = some (name, found) →
        entries.lookup name = some found := by
    intro entries
    induction entries with
    | nil => simp
    | cons entry entries ih =>
        intro place name found distinct here
        cases place with
        | zero => simp_all
        | succ place =>
            have different : name ≠ entry.1 := by
              intro equal
              have member : (name, found) ∈ entries := List.mem_of_getElem? here
              exact (List.nodup_cons.1 distinct).1
                (equal ▸ List.mem_map_of_mem (f := Prod.fst) member)
            rw [List.lookup_cons, beq_false_of_ne different]
            exact ih place name found (List.nodup_cons.1 distinct).2 here
  exact first _ index.val _ _
    ((map_fst_toList ⟨names, increasing, value⟩).symm ▸ distinct) (by simp [toList])

/-! ## Insertion -/

/-- Put an entry at its place among entries in order, replacing an entry with
the same name. -/
def insertEntry
    (name : String)
    (value : α) :
    List (String × α) → List (String × α)
  | [] => [(name, value)]
  | (other, old) :: entries =>
      if name < other then
        (name, value) :: (other, old) :: entries
      else if name = other then
        (name, value) :: entries
      else
        (other, old) :: insertEntry name value entries

/-- An inserted entry adds no name besides its own. -/
theorem mem_names_insertEntry
    {name : String}
    {value : α}
    {entries : List (String × α)}
    {other : String}
    (member : other ∈ (insertEntry name value entries).map Prod.fst) :
    other = name ∨ other ∈ entries.map Prod.fst := by
  induction entries with
  | nil => simpa [insertEntry] using member
  | cons entry entries ih =>
      obtain ⟨first, old⟩ := entry
      rw [insertEntry] at member
      split at member
      · simpa using member
      · split at member
        next equal =>
          rcases List.mem_cons.1 member with here | there
          · exact .inl here
          · exact .inr (List.mem_cons_of_mem _ there)
        next =>
          rcases List.mem_cons.1 member with here | there
          · exact .inr (by simp [here])
          · rcases ih there with here | there
            · exact .inl here
            · exact .inr (List.mem_cons_of_mem _ there)

/-- Insertion keeps the order of the names. -/
theorem increasing_insertEntry
    (name : String)
    (value : α)
    {entries : List (String × α)}
    (increasing : (entries.map Prod.fst).Pairwise (· < ·)) :
    ((insertEntry name value entries).map Prod.fst).Pairwise (· < ·) := by
  induction entries with
  | nil => simp [insertEntry]
  | cons entry entries ih =>
      obtain ⟨first, old⟩ := entry
      obtain ⟨below, rest⟩ := List.pairwise_cons.1 increasing
      rw [insertEntry]
      split
      next before =>
        refine List.pairwise_cons.2 ⟨?_, increasing⟩
        intro other member
        rcases List.mem_cons.1 member with here | there
        · exact here ▸ before
        · exact String.lt_trans before (below other there)
      next notBefore =>
        split
        next equal =>
          exact List.pairwise_cons.2 ⟨equal ▸ below, rest⟩
        next different =>
          refine List.pairwise_cons.2 ⟨?_, ih rest⟩
          intro other member
          rcases mem_names_insertEntry member with here | there
          · rw [here]
            exact String.not_le.1
              (fun le => different (String.le_antisymm le (String.not_lt.1 notBefore)))
          · exact below other there

/-- The map with `value` under `name`, whatever stood there. -/
def insert (map : NameMap α) (name : String) (value : α) : NameMap α :=
  ofIncreasing (insertEntry name value map.toList)
    (increasing_insertEntry name value (map.map_fst_toList ▸ map.increasing))

/-- The map without the entry under `name`. -/
def erase (map : NameMap α) (name : String) : NameMap α :=
  ofIncreasing (map.toList.filter fun entry => entry.1 != name)
    (List.Pairwise.sublist
      (List.filter_sublist.map Prod.fst)
      (map.map_fst_toList ▸ map.increasing))

/-- The map with the given entries; of entries with one name the last counts. -/
def ofList (entries : List (String × α)) : NameMap α :=
  entries.foldl (fun map entry => map.insert entry.1 entry.2) empty

/-- The entries of both maps; under a name of both stands the value of `later`. -/
def extend (map later : NameMap α) : NameMap α :=
  later.toList.foldl (fun map entry => map.insert entry.1 entry.2) map

/-- The map with every value changed by `change`. -/
def map (change : α → β) (map : NameMap α) : NameMap β where
  names := map.names
  increasing := map.increasing
  value index := change (map.value index)

end NameMap

end ItemTable
