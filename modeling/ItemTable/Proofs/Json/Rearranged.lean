import ItemTable.Proofs.AssociationList
import ItemTable.Proofs.Json.Nesting
import ItemTable.Proofs.NameMap
import ItemTable.Proofs.Sequencing

/-!
# Members in another order

The order in which the members of an object come means nothing.  A decoder recovers a
value if it reads the value from its document and from every document that differs from
it only so.
-/

namespace ItemTable.Json

open AssociationList

/-! ## Rearranged documents -/

/-- The documents differ at most in the order of the members of objects, at any depth. -/
inductive Rearranged : Json → Json → Prop where
  | same (document : Json) : Rearranged document document
  | array
      {items others : List Json}
      (each : List.Forall₂ Rearranged items others) :
      Rearranged (.array items) (.array others)
  | object
      {members others : List (String × Json)}
      (names : (others.map Prod.fst).Perm (members.map Prod.fst))
      (each : ∀ name value other,
        (name, value) ∈ members → (name, other) ∈ others → Rearranged value other) :
      Rearranged (.object members) (.object others)

/-- Members under distinct names may be put into any order. -/
theorem Rearranged.of_perm
    {members others : List (String × Json)}
    (distinct : (members.map Prod.fst).Nodup)
    (ordered : others.Perm members) :
    (Json.object members).Rearranged (.object others) := by
  refine .object (ordered.map Prod.fst) fun name value other there here => ?_
  have written := lookup_of_mem distinct there
  rw [lookup_of_mem distinct (ordered.subset here), Option.some.injEq] at written
  exact written ▸ .same other

section Rearranged

variable {other : Json}

theorem Rearranged.eq_string
    {text : String}
    (moved : (Json.string text).Rearranged other) :
    other = .string text := by
  cases moved
  rfl

theorem Rearranged.eq_bool
    {value : Bool}
    (moved : (Json.bool value).Rearranged other) :
    other = .bool value := by
  cases moved
  rfl

theorem Rearranged.eq_number
    {value : Number}
    (moved : (Json.number value).Rearranged other) :
    other = .number value := by
  cases moved
  rfl

theorem Rearranged.exists_items
    {items : List Json}
    (moved : (Json.array items).Rearranged other) :
    ∃ others, other = .array others ∧ List.Forall₂ Rearranged items others := by
  cases moved with
  | same => exact ⟨items, rfl, List.forall₂_same.mpr fun item _ => .same item⟩
  | array each => exact ⟨_, rfl, each⟩

/-- A rearranged object has the same names, and under each of them what stood there,
rearranged. -/
theorem Rearranged.exists_members
    {members : List (String × Json)}
    (moved : (Json.object members).Rearranged other) :
    ∃ others,
      other = .object others ∧
        (others.map Prod.fst).Perm (members.map Prod.fst) ∧
        ∀ member ∈ others, ∃ value, (member.1, value) ∈ members ∧ value.Rearranged member.2 := by
  cases moved with
  | same =>
      exact ⟨members, rfl, .refl _, fun member there => ⟨member.2, there, .same member.2⟩⟩
  | object names each =>
      refine ⟨_, rfl, names, fun member there => ?_⟩
      rcases List.mem_map.mp (names.subset (List.mem_map_of_mem there)) with ⟨written, here, named⟩
      exact ⟨written.2, named ▸ here, each _ _ _ (named ▸ here) there⟩

/-- An object with one member has no other order. -/
theorem Rearranged.exists_payload
    {name : String}
    {payload : Json}
    (moved : (Json.object [(name, payload)]).Rearranged other) :
    ∃ inside, other = .object [(name, inside)] ∧ payload.Rearranged inside := by
  rcases moved.exists_members with ⟨others, rfl, names, each⟩
  rcases List.map_eq_singleton_iff.mp (List.perm_singleton.mp names) with ⟨⟨_, inside⟩, rfl, rfl⟩
  rcases each _ List.mem_cons_self with ⟨value, there, moved⟩
  cases List.mem_singleton.mp there
  exact ⟨inside, rfl, moved⟩

end Rearranged

/-! ## Recovered values -/

namespace Decoder

/-- The decoder reads the value from the document, however its members are ordered, unless
it is nested too deeply. -/
structure Recovers
    {α : Type}
    (decoder : Decoder α)
    (document : Json)
    (value : α) :
    Prop where
  /-- A null might be taken for a value that is missing. -/
  filled : document ≠ .null
  reads : ∀ {other : Json},
    document.Rearranged other →
      ∀ {levels}, 0 < levels →
        decoder levels (.ofJson other) =
          if other.depth < levels then .ok value else .error .malformed

section Scalars

theorem recovers_string (text : String) : Decoder.string.Recovers (.string text) text where
  filled := nofun
  reads moved levels positive := by
    rw [moved.eq_string]
    exact (if_pos positive).symm

theorem recovers_bool (value : Bool) : Decoder.bool.Recovers (.bool value) value where
  filled := nofun
  reads moved levels positive := by
    rw [moved.eq_bool]
    exact (if_pos positive).symm

theorem recovers_int32
    {value : Int}
    (short : isInt32 value = true) :
    Decoder.int32.Recovers (.ofInt value) value where
  filled := nofun
  reads moved levels positive := by
    rw [moved.eq_number, Draft.ofJson, int32, if_pos short]
    exact (if_pos positive).symm

theorem recovers_real
    {value : Binary64}
    (finite : value.isFinite = true) :
    Decoder.real.Recovers (.number (.real value)) value where
  filled := nofun
  reads moved levels positive := by
    rw [moved.eq_number, Draft.ofJson, real, if_pos finite]
    exact (if_pos positive).symm

theorem recovers_choice
    {α : Type}
    {ofName? : String → Option α}
    {name : String}
    {value : α}
    (named : ofName? name = some value) :
    (Decoder.choice ofName?).Recovers (.string name) value where
  filled := nofun
  reads moved levels positive := by
    rw [moved.eq_string, Draft.ofJson, choice, named]
    exact (if_pos positive).symm

end Scalars

section Collections

variable
  {α : Type}
  {item : Decoder α}
  {write : α → Json}

theorem mapM_of_recovers
    {levels : Nat}
    {values : List α}
    {documents : List Json}
    (positive : 0 < levels)
    (each : ∀ value ∈ values, item.Recovers (write value) value)
    (moved : List.Forall₂ Rearranged (values.map write) documents) :
    (Draft.ofItems documents).mapM (item levels) =
      if ∀ document ∈ documents, document.depth < levels then
        .ok values
      else
        .error .malformed := by
  induction values generalizing documents with
  | nil =>
      cases moved
      rfl
  | cons value values ih =>
      rcases moved with _ | @⟨_, document, _, documents, here, behind⟩
      rcases List.forall_mem_cons.mp each with ⟨recovers, others⟩
      rw [Draft.ofItems, List.mapM_cons, recovers.reads here positive, ih others behind]
      by_cases within : document.depth < levels
      · simp only [List.forall_mem_cons, within, if_true, true_and]
        split <;> rfl
      · simp only [List.forall_mem_cons, within, if_false, false_and]
        rfl

theorem Recovers.list
    {values : List α}
    (each : ∀ value ∈ values, item.Recovers (write value) value) :
    (Decoder.list item).Recovers (.array (values.map write)) values where
  filled := nofun
  reads {other} moved levels positive := by
    rcases moved.exists_items with ⟨documents, rfl, pairs⟩
    rw [Draft.ofJson, Decoder.list]
    simp only [depth_array_lt]
    by_cases closed : levels ≤ 1
    · simp only [closed, if_true, not_true, false_and, if_false]
    · rw [if_neg closed, mapM_of_recovers (by omega) each pairs]
      simp only [closed, not_false_eq_true, true_and]
      split <;> rfl

/-- Members that are rearranged are read as entries under their names. -/
theorem mapM_members_of_recovers
    {map : NameMap α}
    {levels : Nat}
    {members : List (String × Json)}
    (positive : 0 < levels)
    (each : ∀ name value, map.find? name = some value → item.Recovers (write value) value)
    (moved : ∀ member ∈ members, ∃ value,
      map.find? member.1 = some value ∧ (write value).Rearranged member.2) :
    ∃ entries : List (String × α),
      entries.map Prod.fst = members.map Prod.fst ∧
        (∀ entry ∈ entries, map.find? entry.1 = some entry.2) ∧
        ∀ {read : Option String × Draft → Except DecodeError (String × α)},
          (∀ name draft, read (some name, draft) = do return (name, ← item levels draft)) →
            (Draft.ofMembers members).mapM read =
              if ∀ member ∈ members, member.2.depth < levels then
                .ok entries
              else
                .error .malformed := by
  induction members with
  | nil => exact ⟨[], rfl, nofun, fun _ => rfl⟩
  | cons member members ih =>
      rcases member with ⟨name, document⟩
      rcases List.forall_mem_cons.mp moved with ⟨⟨value, found, here⟩, behind⟩
      rcases ih behind with ⟨entries, names, entered, others⟩
      refine ⟨(name, value) :: entries, ?_, List.forall_mem_cons.mpr ⟨found, entered⟩, ?_⟩
      · rw [List.map_cons, List.map_cons, names]
      · intro read named
        rw [Draft.ofMembers, List.mapM_cons, named, (each name value found).reads here positive,
          others named]
        by_cases within : document.depth < levels
        · simp only [List.forall_mem_cons, within, if_true, true_and]
          split <;> rfl
        · simp only [List.forall_mem_cons, within, if_false, false_and]
          rfl

theorem Recovers.names
    {map : NameMap α}
    (each : ∀ name value, map.find? name = some value → item.Recovers (write value) value) :
    (Decoder.names item).Recovers
      (.object (map.toList.map fun (name, value) => (name, write value))) map where
  filled := nofun
  reads {other} moved levels positive := by
    rcases moved.exists_members with ⟨members, rfl, names, written⟩
    have moved : ∀ member ∈ members, ∃ value,
        map.find? member.1 = some value ∧ (write value).Rearranged member.2 := by
      intro member there
      rcases written member there with ⟨document, here, moved⟩
      rcases List.mem_map.mp here with ⟨⟨name, value⟩, listed, same⟩
      cases same
      exact ⟨value, NameMap.find?_eq_some_iff.mpr listed, moved⟩
    have sameNames : (members.map Prod.fst).Perm map.names := by
      rw [List.map_map] at names
      exact map.map_fst_toList ▸ names
    rw [Draft.ofJson, Decoder.names]
    simp only [depth_object_lt]
    by_cases closed : levels ≤ 1
    · simp only [closed, if_true, not_true, false_and, if_false]
    · rcases mapM_members_of_recovers (by omega : 0 < levels - 1) each moved with
        ⟨entries, listed, entered, read⟩
      have whole : NameMap.ofList entries = map := NameMap.ofList_eq (listed ▸ sameNames) entered
      rw [if_neg closed, read (fun _ _ => rfl), ← whole]
      simp only [closed, not_false_eq_true, true_and]
      split <;> rfl

end Collections

end Decoder

end ItemTable.Json
