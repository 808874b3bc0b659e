import ItemTable.Projection
import ItemTable.Proofs.NameMap
import Mathlib.Data.List.Infix

/-!
# Values at paths of names

What stands at a path of names in an item, and what a value changes that is put there:
behind the path stands the value, in front of its end stand maps that have one name more
at most, and where neither path goes on as the other nothing changes.  Items are equal if
they have the same at all paths of names, up to maps being maps.
-/

namespace ItemTable

/-! ## Paths of names -/

/-- The path that is made of names. -/
def Path.ofNames (names : List String) : Path :=
  ⟨names.map .attribute⟩

namespace AttributeValue

/-- The value that names lead to, one field after the other. -/
def under? (value : AttributeValue) (names : List String) : Option AttributeValue :=
  value.walk? (names.map .attribute)

@[simp]
theorem under?_nil (value : AttributeValue) : value.under? [] = some value :=
  rfl

theorem under?_append
    (value : AttributeValue)
    (names more : List String) :
    value.under? (names ++ more) = value.under? names >>= fun inner => inner.under? more := by
  simp [under?, walk?, List.foldlM_append]

end AttributeValue

namespace Item

/-- What stands at a path of names. -/
def at? (item : Item) (names : List String) : Option AttributeValue :=
  item.resolve? (.ofNames names)

@[simp]
theorem at?_nil (item : Item) : item.at? [] = none :=
  rfl

theorem at?_cons
    (item : Item)
    (name : String)
    (names : List String) :
    item.at? (name :: names) = item.find? name >>= fun value => value.under? names :=
  rfl

@[simp]
theorem at?_singleton (item : Item) (name : String) : item.at? [name] = item.find? name := by
  rw [at?_cons]
  cases item.find? name <;> rfl

/-- What stands at a path is found under what stands in front. -/
theorem at?_append
    {item : Item}
    {names : List String}
    (named : names ≠ [])
    (more : List String) :
    item.at? (names ++ more) = item.at? names >>= fun value => value.under? more := by
  cases names with
  | nil => exact absurd rfl named
  | cons name names =>
      rw [List.cons_append, at?_cons, at?_cons]
      cases item.find? name with
      | none => rfl
      | some value => exact value.under?_append names more

end Item

/-- A map has under a path of names what its fields have there. -/
theorem AttributeValue.under?_map
    (fields : Item)
    (name : String)
    (names : List String) :
    (AttributeValue.map fields).under? (name :: names) = fields.at? (name :: names) :=
  rfl

/-- Only a map has anything under a name. -/
theorem AttributeValue.exists_map_of_under?
    {value found : AttributeValue}
    {name : String}
    {names : List String}
    (there : value.under? (name :: names) = some found) :
    ∃ fields, value = .map fields := by
  cases value with
  | map fields => exact ⟨fields, rfl⟩
  | _ => cases there

/-! ## Putting a value at a path of names -/

namespace Item

/-- Nothing but maps stands in front of the end of a path of names. -/
def IsOpen (item : Item) (names : List String) : Prop :=
  ∀ front name, front ≠ [] → front ++ [name] <+: names →
    ∀ value, item.at? front = some value → ∃ fields, value = .map fields

/-- The fields that stand under a name, if a map does. -/
def fieldsAt (item : Item) (name : String) : Item :=
  (item.find? name >>= AttributeValue.map?).getD ∅

theorem insertAt_cons
    {item : Item}
    {first second : String}
    {rest : List String}
    (isOpen : item.IsOpen (first :: second :: rest))
    (value : AttributeValue) :
    item.insertAt value (first :: second :: rest) =
      item.insert first (.map ((item.fieldsAt first).insertAt value (second :: rest))) := by
  have front := isOpen [first] second (by simp) ⟨rest, rfl⟩
  rw [at?_singleton] at front
  rw [insertAt, fieldsAt]
  · cases found : item.find? first with
    | none => rfl
    | some present =>
        rcases front present found with ⟨fields, rfl⟩
        rfl
  · exact nofun

/-- An inserted value is found under its name, and nothing else changes. -/
theorem at?_insert
    (item : Item)
    (name first : String)
    (value : AttributeValue)
    (rest : List String) :
    at? (item.insert name value) (first :: rest) =
      if first = name then value.under? rest else item.at? (first :: rest) := by
  rw [at?_cons, NameMap.find?_insert]
  split <;> rfl

/-- Behind a name there is what stands in the fields under it. -/
theorem at?_cons_cons
    {item : Item}
    (first second : String)
    (rest : List String) :
    item.at? (first :: second :: rest) = (item.fieldsAt first).at? (second :: rest) := by
  rw [at?_cons, fieldsAt]
  cases item.find? first with
  | none => rfl
  | some present => cases present <;> rfl

theorem IsOpen.fieldsAt
    {item : Item}
    {first second : String}
    {rest : List String}
    (isOpen : item.IsOpen (first :: second :: rest)) :
    (item.fieldsAt first).IsOpen (second :: rest) := by
  intro front name named before value found
  refine isOpen (first :: front) name nofun ?_ value ?_
  · simpa using before
  · cases front with
    | nil => exact absurd rfl named
    | cons second' front => rwa [at?_cons_cons]

/-- At the end of the path and behind it stands the value. -/
theorem at?_insertAt_behind
    {item : Item}
    {names : List String}
    (isOpen : item.IsOpen names)
    (named : names ≠ [])
    (value : AttributeValue)
    (more : List String) :
    (item.insertAt value names).at? (names ++ more) = value.under? more := by
  induction names generalizing item with
  | nil => exact absurd rfl named
  | cons first rest ih =>
      cases rest with
      | nil => rw [insertAt, List.singleton_append, at?_insert, if_pos rfl]
      | cons second rest =>
          rw [insertAt_cons isOpen, List.cons_append, at?_insert, if_pos rfl, List.cons_append,
            AttributeValue.under?_map]
          exact ih isOpen.fieldsAt nofun

/-- The first name of the path is the only one that may be new. -/
theorem isSome_find?_insertAt
    (item : Item)
    (first name : String)
    (value : AttributeValue)
    (rest : List String) :
    ((item.insertAt value (first :: rest)).find? name).isSome ↔
      name = first ∨ (item.find? name).isSome := by
  cases rest with
  | nil =>
      rw [insertAt, NameMap.find?_insert]
      split <;> simp [*]
  | cons second rest =>
      rw [insertAt]
      · split
        case h_3 present _ found =>
          constructor
          · exact .inr
          · rintro (rfl | there)
            · exact Option.isSome_of_eq_some found
            · exact there
        all_goals
          rw [NameMap.find?_insert]
          split <;> simp [*]
      · exact nofun

/-- In front of its end stand maps, each with the next name of the path besides those
that there were. -/
theorem at?_insertAt_front
    {item : Item}
    {names front behind : List String}
    {next : String}
    (isOpen : item.IsOpen names)
    (named : front ≠ [])
    (path : names = front ++ next :: behind)
    (value : AttributeValue) :
    ∃ fields,
      (item.insertAt value names).at? front = some (.map fields) ∧
        ∀ name, (fields.find? name).isSome ↔ name = next ∨ (item.at? (front ++ [name])).isSome := by
  induction names generalizing item front with
  | nil => simp at path
  | cons first rest ih =>
      cases front with
      | nil => exact absurd rfl named
      | cons _ front =>
          rcases List.cons.inj path with ⟨rfl, rest_eq⟩
          cases rest with
          | nil => simp at rest_eq
          | cons second rest =>
              rw [insertAt_cons isOpen, at?_insert, if_pos rfl]
              cases front with
              | nil =>
                  refine ⟨_, rfl, fun name => ?_⟩
                  rcases List.cons.inj rest_eq with ⟨rfl, -⟩
                  rw [isSome_find?_insertAt, List.singleton_append, at?_cons_cons, at?_singleton]
              | cons _ front =>
                  rw [AttributeValue.under?_map]
                  rcases ih isOpen.fieldsAt (List.cons_ne_nil _ front) rest_eq with
                    ⟨fields, found, namesOf⟩
                  refine ⟨fields, found, fun name => ?_⟩
                  rw [namesOf, List.cons_append, List.cons_append, List.cons_append, at?_cons_cons]

/-- Where neither path goes on as the other, nothing changes. -/
theorem at?_insertAt_apart
    {item : Item}
    {names other : List String}
    (isOpen : item.IsOpen names)
    (notBehind : ¬names <+: other)
    (notFront : ¬other <+: names)
    (value : AttributeValue) :
    (item.insertAt value names).at? other = item.at? other := by
  induction names generalizing item other with
  | nil => exact absurd other.nil_prefix notBehind
  | cons first rest ih =>
      cases other with
      | nil => exact absurd (List.nil_prefix) notFront
      | cons first' other =>
          cases rest with
          | nil =>
              have different : first' ≠ first := by
                rintro rfl
                exact notBehind ⟨other, rfl⟩
              rw [insertAt, at?_insert, if_neg different]
          | cons second rest =>
              rw [insertAt_cons isOpen, at?_insert]
              split
              next same =>
                subst same
                rw [List.cons_prefix_cons, not_and] at notBehind notFront
                cases other with
                | nil => exact absurd List.nil_prefix (notFront rfl)
                | cons second' other =>
                    rw [AttributeValue.under?_map, at?_cons_cons]
                    exact ih isOpen.fieldsAt (notBehind rfl) (notFront rfl)
              next => rfl

/-- To put a value where it stands already changes nothing. -/
theorem insertAt_of_at?
    {item : Item}
    {names : List String}
    {value : AttributeValue}
    (found : item.at? names = some value) :
    item.insertAt value names = item := by
  induction names generalizing item with
  | nil => rfl
  | cons first rest ih =>
      cases rest with
      | nil => exact NameMap.insert_of_find? (at?_singleton item first ▸ found)
      | cons second rest =>
          rw [at?_cons] at found
          rw [insertAt]
          · cases present : item.find? first with
            | none => rw [present] at found; cases found
            | some inner =>
                rw [present] at found
                rcases AttributeValue.exists_map_of_under? found with ⟨fields, rfl⟩
                have inside : insertAt fields value (second :: rest) = fields := ih found
                simp only [inside]
                exact NameMap.insert_of_find? present
          · exact nofun

end Item

/-! ## Telling items apart -/

namespace AttributeValue

/-- Under all paths of names the values have the same, or a map each. -/
def Similar (left right : AttributeValue) : Prop :=
  ∀ names,
    left.under? names = right.under? names ∨
      ∃ fields others, left.under? names = some (.map fields) ∧
        right.under? names = some (.map others)

/-- What stands under a name in similar maps is equal or a pair of similar maps. -/
theorem Similar.field
    {fields others inner : Item}
    {value : AttributeValue}
    {name : String}
    (similar : (map fields).Similar (map others))
    (found : fields.find? name = some value)
    (there : others.find? name = some (map inner)) :
    value.Similar (map inner) := by
  intro more
  have further := similar (name :: more)
  rw [under?_map, under?_map, Item.at?_cons, Item.at?_cons, found, there] at further
  exact further

/-- Values that are similar are equal. -/
theorem eq_of_similar
    (left right : AttributeValue)
    (similar : left.Similar right) :
    left = right := by
  rcases similar [] with same | ⟨inner, others, here, there⟩
  · exact Option.some.inj same
  cases left with
  | map fields =>
      obtain rfl : right = .map others := Option.some.inj there
      -- The induction is on the values of the map, which have to be taken out of it.
      obtain ⟨names, increasing, value⟩ := fields
      congr 1
      apply NameMap.ext_find?
      intro name
      have named := similar [name]
      rw [under?_map, under?_map, Item.at?_singleton, Item.at?_singleton] at named
      rcases named with same | ⟨left, right, found, foundOther⟩
      · exact same
      · rw [NameMap.find?_eq_some_iff, NameMap.toList, List.mem_ofFn] at found
        rcases found with ⟨index, entry⟩
        rcases Prod.mk.inj entry with ⟨rfl, isLeft⟩
        have stands := NameMap.find?_get ⟨names, increasing, value⟩ index
        have equal := eq_of_similar (value index) (.map right) (similar.field stands foundOther)
        rw [stands, foundOther, ← equal]
  | _ => cases here

end AttributeValue

end ItemTable
