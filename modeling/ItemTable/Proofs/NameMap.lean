import ItemTable.NameMap
import ItemTable.Proofs.AssociationList
import Mathlib.Data.List.Nodup
import Mathlib.Data.List.Perm.Subperm

/-!
# Looking up names

What stands under a name after an insertion, and in a map that is made from a
list of entries.  Entries under distinct names make up one map in any order, and
sorted they are the entries of the map.
-/

namespace ItemTable.NameMap

open AssociationList

variable {α : Type}

theorem nodup_names (map : NameMap α) : map.names.Nodup :=
  List.Pairwise.imp (fun less => String.ne_of_lt less) map.increasing

theorem nodup_map_fst_toList (map : NameMap α) : (map.toList.map Prod.fst).Nodup :=
  map.map_fst_toList ▸ map.nodup_names

/-- The entries are listed in increasing order of their names. -/
theorem pairwise_toList (map : NameMap α) :
    map.toList.Pairwise fun first second => first.1 < second.1 :=
  List.pairwise_map.mp (map.map_fst_toList ▸ map.increasing)

theorem nodup_of_distinct
    {entries : List (String × α)}
    (distinct : (entries.map Prod.fst).Nodup) :
    entries.Nodup :=
  List.Pairwise.of_map Prod.fst (fun _ _ different same => different (congrArg _ same)) distinct

theorem nodup_toList (map : NameMap α) : map.toList.Nodup :=
  nodup_of_distinct map.nodup_map_fst_toList

/-- A value stands under a name exactly if the two are an entry. -/
theorem find?_eq_some_iff
    {map : NameMap α}
    {name : String}
    {value : α} :
    map.find? name = some value ↔ (name, value) ∈ map.toList :=
  lookup_eq_some_iff_mem map.nodup_map_fst_toList

theorem find?_isSome_iff
    {map : NameMap α}
    {name : String} :
    (map.find? name).isSome ↔ name ∈ map.names := by
  rw [← map_fst_toList]
  exact lookup_isSome_iff_mem

/-- Where the names are those of a map, something stands in the map under each of them. -/
theorem exists_of_names
    {β : Type}
    {map : NameMap α}
    {entries : List (String × β)}
    {entry : String × β}
    (names : (entries.map Prod.fst).Perm map.names)
    (there : entry ∈ entries) :
    ∃ value, map.find? entry.1 = some value :=
  Option.isSome_iff_exists.mp
    (find?_isSome_iff.mpr (names.subset (List.mem_map_of_mem there)))

/-- A map is determined by what stands under each name. -/
theorem ext_find?
    {left right : NameMap α}
    (same : ∀ name, left.find? name = right.find? name) :
    left = right := by
  apply toList_injective
  have members : ∀ entry, entry ∈ left.toList ↔ entry ∈ right.toList := by
    rintro ⟨name, value⟩
    rw [← find?_eq_some_iff, ← find?_eq_some_iff, same name]
  have perm : left.toList.Perm right.toList :=
    (List.perm_ext_iff_of_nodup left.nodup_toList right.nodup_toList).mpr members
  apply perm.eq_of_pairwise _ left.pairwise_toList right.pairwise_toList
  intro first second _ _ less greater
  exact absurd less (String.lt_asymm greater)

/-- The values of a map are distinct just if no value stands under two names. -/
theorem nodup_map_snd_toList_iff
    {map : NameMap α} :
    (map.toList.map Prod.snd).Nodup ↔
      ∀ first second value,
        map.find? first = some value → map.find? second = some value → first = second := by
  rw [List.nodup_map_iff_inj_on map.nodup_toList]
  constructor
  · intro distinct first second value here there
    rw [find?_eq_some_iff] at here there
    exact congrArg Prod.fst (distinct _ here _ there rfl)
  · rintro distinct ⟨first, value⟩ here ⟨second, _⟩ there rfl
    rw [← find?_eq_some_iff] at here there
    exact congrArg (·, value) (distinct first second value here there)

@[simp]
theorem find?_empty (name : String) : (∅ : NameMap α).find? name = none := by
  simp [find?, EmptyCollection.emptyCollection, empty]

theorem eq_empty
    {map : NameMap α}
    (isEmpty : map.isEmpty = true) :
    map = ∅ := by
  apply ext_find?
  intro name
  have absent : name ∉ map.names := List.isEmpty_iff.mp isEmpty ▸ List.not_mem_nil
  rw [find?_empty, ← Option.not_isSome_iff_eq_none, find?_isSome_iff]
  exact absent

@[simp]
theorem toList_map
    {β : Type}
    (change : α → β)
    (map : NameMap α) :
    (map.map change).toList = map.toList.map fun entry => (entry.1, change entry.2) := by
  rw [toList, toList, List.map_ofFn]
  rfl

/-- What stands under a name is changed, and the names stay. -/
@[simp]
theorem find?_map
    {β : Type}
    (change : α → β)
    (map : NameMap α)
    (name : String) :
    (map.map change).find? name = (map.find? name).map change := by
  rw [find?, toList_map, lookup_map_snd, find?]

/-! ## Insertion -/

/-- An inserted entry is found under its own name and hides no other name. -/
theorem lookup_insertEntry
    (name other : String)
    (value : α)
    (entries : List (String × α)) :
    (insertEntry name value entries).lookup other =
      if other = name then some value else entries.lookup other := by
  induction entries with
  | nil => simp [insertEntry, lookup_cons_ite]
  | cons entry entries ih =>
      rcases entry with ⟨first, old⟩
      rw [insertEntry]
      split
      next => simp [lookup_cons_ite]
      next notBefore =>
        split
        next same =>
          simp only [lookup_cons_ite, ← same]
          split <;> rfl
        next different =>
          simp only [lookup_cons_ite, ih]
          by_cases equal : other = name
          · simp [equal, different]
          · simp [equal]

/-- An insertion changes what stands under its name and nothing else. -/
theorem find?_insert
    (map : NameMap α)
    (name other : String)
    (value : α) :
    (map.insert name value).find? other =
      if other = name then some value else map.find? other := by
  simp [find?, insert, lookup_insertEntry]

theorem insertEntry_of_mem
    {name : String}
    {value : α}
    {entries : List (String × α)}
    (increasing : (entries.map Prod.fst).Pairwise (· < ·))
    (member : (name, value) ∈ entries) :
    insertEntry name value entries = entries := by
  induction entries with
  | nil => cases member
  | cons entry entries ih =>
      rcases entry with ⟨first, old⟩
      rcases List.pairwise_cons.mp increasing with ⟨below, rest⟩
      rw [insertEntry]
      cases member with
      | head => rw [if_neg (String.lt_irrefl name), if_pos rfl]
      | tail _ there =>
          have less : first < name := below name (List.mem_map_of_mem (f := Prod.fst) there)
          rw [if_neg (String.lt_asymm less), if_neg (String.ne_of_lt less).symm, ih rest there]

/-- To insert what stands under the name already changes nothing. -/
theorem insert_of_find?
    {map : NameMap α}
    {name : String}
    {value : α}
    (found : map.find? name = some value) :
    map.insert name value = map := by
  apply toList_injective
  rw [insert, toList_ofIncreasing]
  apply insertEntry_of_mem
  · exact map.map_fst_toList ▸ map.increasing
  · exact find?_eq_some_iff.mp found

/-- Inserting entries one after the other lets the last one of a name count. -/
theorem find?_foldl_insert
    (entries : List (String × α))
    (map : NameMap α)
    (name : String) :
    (entries.foldl (fun map entry => map.insert entry.1 entry.2) map).find? name =
      (entries.reverse.lookup name).or (map.find? name) := by
  induction entries generalizing map with
  | nil => simp
  | cons entry entries ih =>
      rw [List.foldl_cons, ih, find?_insert, List.reverse_cons, List.lookup_append,
        Option.or_assoc, lookup_cons_ite]
      by_cases equal : name = entry.1 <;> simp [equal]

/-- Where both maps have an entry, the later one counts. -/
theorem find?_extend
    (map later : NameMap α)
    (name : String) :
    (map.extend later).find? name = (later.find? name).or (map.find? name) := by
  rw [extend, find?_foldl_insert]
  congr 1
  apply Option.ext
  intro value
  rw [find?_eq_some_iff, lookup_eq_some_iff_mem, List.mem_reverse]
  rw [List.map_reverse]
  exact (List.reverse_perm _).nodup_iff.2 later.nodup_map_fst_toList

/-- Of entries with one name the last one counts. -/
theorem find?_ofList_eq
    (entries : List (String × α))
    (name : String) :
    (ofList entries).find? name = entries.reverse.lookup name := by
  rw [ofList, find?_foldl_insert]
  simp [show (empty : NameMap α).find? name = none from find?_empty name]

/-- A map from entries with distinct names holds exactly those entries. -/
theorem find?_ofList
    {entries : List (String × α)}
    {name : String}
    {value : α}
    (distinct : (entries.map Prod.fst).Nodup) :
    (ofList entries).find? name = some value ↔ (name, value) ∈ entries := by
  have reversed : (entries.reverse.map Prod.fst).Nodup := by
    rw [List.map_reverse]
    exact (List.reverse_perm _).nodup_iff.2 distinct
  rw [find?_ofList_eq, lookup_eq_some_iff_mem reversed, List.mem_reverse]

/-- The entries of a map, in any order, make up the map. -/
theorem ofList_eq
    {map : NameMap α}
    {entries : List (String × α)}
    (names : (entries.map Prod.fst).Perm map.names)
    (entered : ∀ entry ∈ entries, map.find? entry.1 = some entry.2) :
    ofList entries = map := by
  apply ext_find?
  intro name
  apply Option.ext
  intro value
  rw [find?_ofList (names.nodup_iff.mpr map.nodup_names)]
  constructor
  · exact entered (name, value)
  · intro found
    have named : name ∈ entries.map Prod.fst :=
      names.mem_iff.mpr (find?_isSome_iff.mp (Option.isSome_of_eq_some found))
    rcases List.mem_map.mp named with ⟨entry, member, rfl⟩
    rw [entered entry member] at found
    cases found
    exact member

/-- What stands in a map without a name stood there before. -/
theorem find?_of_find?_erase
    {map : NameMap α}
    {name other : String}
    {value : α}
    (found : (map.erase name).find? other = some value) :
    map.find? other = some value := by
  rw [find?_eq_some_iff, erase, toList_ofIncreasing] at found
  exact find?_eq_some_iff.mpr (List.mem_filter.mp found).1

/-! ## Entries in any order -/

section AnyOrder

variable {entries lefts rights : List (String × α)}

/-- The entries under distinct names are those of the map that they make up. -/
theorem perm_toList_ofList (distinct : (entries.map Prod.fst).Nodup) :
    (ofList entries).toList.Perm entries := by
  rw [List.perm_ext_iff_of_nodup (ofList entries).nodup_toList (nodup_of_distinct distinct)]
  rintro ⟨name, value⟩
  rw [← find?_eq_some_iff, find?_ofList distinct]

/-- Entries under distinct names make up one map exactly if they are the same in some order. -/
theorem ofList_eq_ofList_iff_perm
    (distinct : (lefts.map Prod.fst).Nodup)
    (otherDistinct : (rights.map Prod.fst).Nodup) :
    ofList lefts = ofList rights ↔ lefts.Perm rights := by
  constructor
  · intro same
    exact (perm_toList_ofList distinct).symm.trans (same ▸ perm_toList_ofList otherDistinct)
  · intro perm
    apply ext_find?
    intro name
    apply Option.ext
    intro value
    rw [find?_ofList distinct, find?_ofList otherDistinct, perm.mem_iff]

/-- Maps are compared by their sizes and by looking up each entry of one in the other. -/
theorem ofList_eq_ofList_iff
    (distinct : (lefts.map Prod.fst).Nodup)
    (otherDistinct : (rights.map Prod.fst).Nodup) :
    ofList lefts = ofList rights ↔
      lefts.length = rights.length ∧
        ∀ entry ∈ lefts, rights.lookup entry.1 = some entry.2 := by
  rw [ofList_eq_ofList_iff_perm distinct otherDistinct]
  constructor
  · intro perm
    exact ⟨perm.length_eq, fun entry member =>
      lookup_of_mem otherDistinct (perm.subset member)⟩
  · rintro ⟨length, found⟩
    have subset : lefts ⊆ rights := fun entry member =>
      mem_of_lookup (found entry member)
    exact (List.subperm_of_subset (nodup_of_distinct distinct) subset).perm_of_length_le
      (Nat.le_of_eq length.symm)

/-- The entries of a map make up the map. -/
theorem ofList_toList (map : NameMap α) : ofList map.toList = map :=
  ofList_eq (.of_eq map.map_fst_toList) fun _ member => find?_eq_some_iff.mpr member

/-- What is done to all values is done to those of the map. -/
theorem ofList_map
    {β : Type}
    (change : α → β)
    (entries : List (String × α)) :
    ofList (entries.map fun entry => (entry.1, change entry.2)) = (ofList entries).map change := by
  apply ext_find?
  intro name
  rw [find?_map, find?_ofList_eq, find?_ofList_eq, ← List.map_reverse,
    lookup_map_snd]

/-- Entries under distinct names are sorted as the map that they make up lists them. -/
theorem mergeSort_eq_toList (distinct : (entries.map Prod.fst).Nodup) :
    entries.mergeSort (fun left right => left.1 ≤ right.1) = (ofList entries).toList := by
  have sorted :
      (entries.mergeSort fun left right => left.1 ≤ right.1).Pairwise
        fun left right => left.1 ≤ right.1 := by
    refine (List.pairwise_mergeSort ?_ ?_ entries).imp of_decide_eq_true
    · intro first second third below above
      rw [decide_eq_true_eq] at below above ⊢
      exact String.le_trans below above
    · intro first second
      rw [Bool.or_eq_true, decide_eq_true_eq, decide_eq_true_eq]
      exact String.le_total _ _
  have listed : (ofList entries).toList.Pairwise fun left right => left.1 ≤ right.1 :=
    (ofList entries).pairwise_toList.imp fun less => String.not_lt.mp (String.lt_asymm less)
  have perm := (List.mergeSort_perm entries fun left right => left.1 ≤ right.1).trans
    (perm_toList_ofList distinct).symm
  apply perm.eq_of_pairwise _ sorted listed
  -- Of entries under one name both are found, so they are the same.
  rintro ⟨name, left⟩ ⟨other, right⟩ here there below above
  obtain rfl : name = other := String.le_antisymm below above
  have found := find?_eq_some_iff.mpr (perm.subset here)
  rw [find?_eq_some_iff.mpr there] at found
  cases found
  rfl

end AnyOrder

end ItemTable.NameMap
