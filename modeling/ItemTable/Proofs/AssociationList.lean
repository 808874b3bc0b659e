/-!
# Association lists

Looking up a key in a list of pairs finds the pairs that are there, as long as
no key occurs twice.
-/

namespace ItemTable.AssociationList

variable {κ β : Type} [DecidableEq κ]

/-- Only the key of the first pair hides what stands behind it. -/
theorem lookup_cons_ite
    (entry : κ × β)
    (entries : List (κ × β))
    (key : κ) :
    (entry :: entries).lookup key =
      if key = entry.1 then some entry.2 else entries.lookup key := by
  rw [List.lookup_cons]
  by_cases equal : key = entry.1
  · simp [equal]
  · simp [equal, beq_false_of_ne equal]

theorem mem_of_lookup
    {entries : List (κ × β)}
    {key : κ}
    {value : β}
    (found : entries.lookup key = some value) :
    (key, value) ∈ entries := by
  rcases List.lookup_eq_some_iff.1 found with ⟨before, behind, equal, _⟩
  simp [equal]

/-- With distinct keys, every pair of the list is found. -/
theorem lookup_of_mem
    {entries : List (κ × β)}
    {key : κ}
    {value : β}
    (distinct : (entries.map Prod.fst).Nodup)
    (member : (key, value) ∈ entries) :
    entries.lookup key = some value := by
  induction entries with
  | nil => cases member
  | cons entry entries ih =>
      rcases List.nodup_cons.1 distinct with ⟨fresh, rest⟩
      rcases List.mem_cons.1 member with here | there
      · simp [← here]
      · have different : key ≠ entry.1 := by
          intro equal
          exact fresh (equal ▸ List.mem_map_of_mem (f := Prod.fst) there)
        rw [lookup_cons_ite, if_neg different]
        exact ih rest there

theorem lookup_eq_some_iff_mem
    {entries : List (κ × β)}
    {key : κ}
    {value : β}
    (distinct : (entries.map Prod.fst).Nodup) :
    entries.lookup key = some value ↔ (key, value) ∈ entries :=
  ⟨mem_of_lookup, lookup_of_mem distinct⟩

/-- With distinct keys, the order of the pairs does not count. -/
theorem lookup_eq_of_perm
    {entries others : List (κ × β)}
    (distinct : (entries.map Prod.fst).Nodup)
    (ordered : others.Perm entries)
    (key : κ) :
    others.lookup key = entries.lookup key := by
  apply Option.ext
  intro value
  rw [lookup_eq_some_iff_mem ((ordered.map Prod.fst).nodup_iff.mpr distinct),
    lookup_eq_some_iff_mem distinct, ordered.mem_iff]

theorem lookup_isSome_iff_mem
    {entries : List (κ × β)}
    {key : κ} :
    (entries.lookup key).isSome ↔ key ∈ entries.map Prod.fst := by
  rw [List.lookup_isSome_iff, List.mem_map]
  constructor
  · rintro ⟨entry, member, same⟩
    exact ⟨entry, member, (beq_iff_eq.1 same).symm⟩
  · rintro ⟨entry, member, same⟩
    exact ⟨entry, member, beq_iff_eq.2 same.symm⟩

theorem lookup_eq_none_iff_not_mem
    {entries : List (κ × β)}
    {key : κ} :
    entries.lookup key = none ↔ key ∉ entries.map Prod.fst := by
  rw [← lookup_isSome_iff_mem, Option.not_isSome_iff_eq_none]

theorem lookup_append_left
    {entries others : List (κ × β)}
    {key : κ}
    (absent : key ∉ others.map Prod.fst) :
    (entries ++ others).lookup key = entries.lookup key := by
  rw [List.lookup_append, lookup_eq_none_iff_not_mem.mpr absent, Option.or_none]

theorem lookup_append_right
    {entries others : List (κ × β)}
    {key : κ}
    (absent : key ∉ entries.map Prod.fst) :
    (entries ++ others).lookup key = others.lookup key := by
  rw [List.lookup_append, lookup_eq_none_iff_not_mem.mpr absent, Option.none_or]

/-- What is done to all values is done to the one that is found. -/
theorem lookup_map_snd
    {γ : Type}
    (change : β → γ)
    (entries : List (κ × β))
    (key : κ) :
    (entries.map fun entry => (entry.1, change entry.2)).lookup key =
      (entries.lookup key).map change := by
  induction entries with
  | nil => rfl
  | cons entry entries ih =>
      rw [List.map_cons, lookup_cons_ite, lookup_cons_ite, ih]
      split <;> rfl

end ItemTable.AssociationList
