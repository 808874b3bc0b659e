import ItemTable.Proofs.Storage.Alike
import Mathlib.Data.Finmap

/-!
# A table is a finite map

What a table answers is what a finite map answers whose keys are primary keys, those
that the order does not tell apart taken as one.  A write looks up its key, asks its
check about what it finds, and inserts or erases; nothing is left of the partitions,
of the order in which they were opened or of the texts that were met first.
-/

namespace ItemTable

/-- Keys are the same to a table if the order does not tell them apart. -/
instance PrimaryKey.setoid : Setoid PrimaryKey where
  r left right := left.isSame right
  iseqv := {
    refl := isSame_refl
    symm := isSame_symm
    trans := isSame_trans }

/-- A place for an item: all keys that are the same to a table. -/
abbrev Place :=
  Quotient PrimaryKey.setoid

instance (left right : PrimaryKey) : Decidable (left ≈ right) :=
  inferInstanceAs (Decidable (left.isSame right))

theorem PrimaryKey.place_eq_iff
    {left right : PrimaryKey} :
    (⟦left⟧ : Place) = ⟦right⟧ ↔ left.isSame right :=
  Quotient.eq

example : (⟦⟨.number "1", .absent⟩⟧ : Place) = ⟦⟨.number "1.0", .absent⟩⟧ := by
  decide +kernel

/-- The place of an item by its key, if it has one. -/
def KeySchema.place? (schema : KeySchema) (item : Item) : Option Place :=
  match schema.primaryKey item with
  | .ok key => some ⟦key⟧
  | .error _ => none

/-- A map from places to items. -/
abbrev ItemMap :=
  Finmap fun _ : Place => Item

namespace ItemMap

open Storage

/-- Answer a write. -/
def write (schema : KeySchema) (map : ItemMap) : Write → Answer × ItemMap
  | .put (ε := ε) item check =>
      match schema.primaryKey item with
      | .error error => (.put (ε := ε) (.error (.key error)), map)
      | .ok key =>
          let found := map.lookup ⟦key⟧
          match check found with
          | .error error => (.put (.error (.refused error)), map)
          | .ok () => (.put (ε := ε) (.ok found), map.insert ⟦key⟧ item)
  | .delete (ε := ε) key check =>
      let found := map.lookup ⟦key⟧
      match check found with
      | .error error => (.delete (.error error), map)
      | .ok () => (.delete (ε := ε) (.ok found), map.erase ⟦key⟧)

/-- Answer a call. -/
def answer (schema : KeySchema) (map : ItemMap) : Call → Answer × ItemMap
  | .write write => map.write schema write
  | .get key => (.item (map.lookup ⟦key⟧), map)
  | .count => (.count map.keys.card, map)

/-! ## Look-ups -/

/-- The item with a key. -/
def item? (map : ItemMap) (key : PrimaryKey) : Option Item :=
  map.lookup ⟦key⟧

theorem item?_insert
    (map : ItemMap)
    (key other : PrimaryKey)
    (item : Item) :
    item? (map.insert ⟦key⟧ item) other =
      if key.isSame other then some item else map.item? other := by
  rw [item?, item?]
  by_cases same : key.isSame other
  · rw [if_pos same, ← PrimaryKey.place_eq_iff.mpr same]
    exact Finmap.lookup_insert map
  · rw [if_neg same]
    apply Finmap.lookup_insert_of_ne
    intro equal
    exact same (PrimaryKey.place_eq_iff.mp equal.symm)

theorem item?_erase
    (map : ItemMap)
    (key other : PrimaryKey) :
    item? (map.erase ⟦key⟧) other =
      if key.isSame other then none else map.item? other := by
  rw [item?, item?]
  by_cases same : key.isSame other
  · rw [if_pos same, ← PrimaryKey.place_eq_iff.mpr same]
    exact Finmap.lookup_erase _ map
  · rw [if_neg same]
    apply Finmap.lookup_erase_ne
    intro equal
    exact same (PrimaryKey.place_eq_iff.mp equal.symm)

/-- A map answers a write, and changes what its keys find, as the write says. -/
theorem write_eq_outcome
    (schema : KeySchema)
    (map : ItemMap)
    (write : Write) :
    (map.write schema write).1 = (write.outcome schema map.item?).1 ∧
      (map.write schema write).2.item? = (write.outcome schema map.item?).2 := by
  cases write with
  | put item check =>
      rw [ItemMap.write, Write.outcome]
      cases schema.primaryKey item with
      | error error => exact ⟨rfl, rfl⟩
      | ok key =>
          dsimp only
          rw [← item?]
          cases check (map.item? key) with
          | error error => exact ⟨rfl, rfl⟩
          | ok _ => exact ⟨rfl, funext fun other => map.item?_insert key other item⟩
  | delete key check =>
      rw [ItemMap.write, Write.outcome, ← item?]
      cases check (map.item? key) with
      | error error => exact ⟨rfl, rfl⟩
      | ok _ => exact ⟨rfl, funext fun other => map.item?_erase key other⟩

end ItemMap

namespace Storage

/-! ## Tables and maps -/

/-- A map stands for a sound table if each key finds in it what it finds in the table. -/
structure Represents (schema : KeySchema) (map : ItemMap) (storage : Storage) : Prop where
  sound : storage.Sound
  schema : storage.schema = schema
  item? : ∀ key, storage.item? key = map.item? key

variable {schema : KeySchema} {map : ItemMap} {storage : Storage}

theorem Represents.empty
    (schema : KeySchema)
    (indexes : NameMap KeySchema) :
    Represents schema ∅ ⟨schema, indexes, []⟩ where
  sound := ⟨.nil, by simp⟩
  schema := rfl
  item? key := by
    rw [ItemMap.item?, Finmap.lookup_empty]
    rfl

theorem Represents.places_nodup (represents : Represents schema map storage) :
    (storage.items.map storage.schema.place?).Nodup := by
  rw [List.Nodup, List.pairwise_map]
  apply represents.sound.items_apart.imp_of_mem
  intro left right leftStored rightStored apart same
  rcases represents.sound.keyed leftStored with ⟨leftKey, leftKeyed⟩
  rcases represents.sound.keyed rightStored with ⟨rightKey, rightKeyed⟩
  rw [KeySchema.place?, KeySchema.place?, leftKeyed, rightKeyed] at same
  have isSame := PrimaryKey.place_eq_iff.mp (Option.some.inj same)
  rw [apart leftKey rightKey leftKeyed rightKeyed] at isSame
  cases isSame

/-- The places of the items of a table are the keys of the map. -/
theorem Represents.mem_places
    (represents : Represents schema map storage)
    (place : Option Place) :
    place ∈ storage.items.map storage.schema.place? ↔
      ∃ key ∈ map.keys, some key = place := by
  rw [List.mem_map]
  constructor
  · rintro ⟨item, stored, rfl⟩
    rcases represents.sound.mem_items_iff.mp stored with ⟨key, keyed, looked⟩
    rw [represents.item? key] at looked
    refine ⟨⟦key⟧, Finmap.mem_keys.mpr (Finmap.mem_of_lookup_eq_some looked), ?_⟩
    rw [KeySchema.place?, keyed]
  · rintro ⟨⟨key⟩, member, rfl⟩
    rcases Finmap.mem_iff.mp (Finmap.mem_keys.mp member) with ⟨item, looked⟩
    have found : storage.item? key = some item := (represents.item? key).trans looked
    rcases represents.sound.item?_eq_some_iff.mp found with ⟨stored, other, keyed, isSame⟩
    refine ⟨item, stored, ?_⟩
    rw [KeySchema.place?, keyed]
    exact congrArg some (PrimaryKey.place_eq_iff.mpr isSame)

/-- A table has as many items as the map has keys. -/
theorem Represents.itemCount_eq (represents : Represents schema map storage) :
    storage.itemCount = map.keys.card := by
  -- No two items lie in one place, so counting items is counting places.
  have places : (storage.items.map storage.schema.place?).toFinset =
      map.keys.map Function.Embedding.some := by
    ext place
    rw [List.mem_toFinset, represents.mem_places, Finset.mem_map]
    rfl
  calc
    storage.itemCount = (storage.items.map storage.schema.place?).length := by
      rw [List.length_map, length_items]
    _ = (storage.items.map storage.schema.place?).toFinset.card :=
      (List.toFinset_card_of_nodup represents.places_nodup).symm
    _ = map.keys.card := by
      rw [places, Finset.card_map]

/-- A table and a map that stands for it answer a call alike, and the map stands for the
table afterwards. -/
theorem Represents.answer_eq
    (represents : Represents schema map storage)
    (call : Call) :
    (storage.answer call).1 = (map.answer schema call).1 ∧
      Represents schema (map.answer schema call).2 (storage.answer call).2 := by
  cases call with
  | write write =>
      have looked : storage.item? = map.item? := funext represents.item?
      rcases storage.write_eq_outcome write with ⟨tableAnswer, tableItems⟩
      rcases map.write_eq_outcome schema write with ⟨mapAnswer, mapItems⟩
      rw [represents.schema, looked] at tableAnswer tableItems
      rw [answer, ItemMap.answer, write_snd]
      refine ⟨tableAnswer.trans mapAnswer.symm, represents.sound.after write, ?_, ?_⟩
      · rw [(storage.after_schema write).1, represents.schema]
      · intro key
        rw [tableItems, mapItems]
  | get key => exact ⟨congrArg Answer.item (represents.item? key), represents⟩
  | count => exact ⟨congrArg Answer.count represents.itemCount_eq, represents⟩

/-- A put fails with an error of the key, before its check and without a trace, exactly
if the item lacks a key attribute or has one of another kind. -/
theorem putIf_eq_key_error_iff
    (storage : Storage)
    (item : Item) :
    (∃ error, ∀ (ε : Type) (check : Option Item → Except ε Unit),
        storage.putIf item check = (.error (.key error), storage)) ↔
      ∃ member ∈ storage.schema.attributes, ∀ value, ¬member.Holds item value := by
  have unkeyed : (∃ member ∈ storage.schema.attributes, ∀ value, ¬member.Holds item value) ↔
      ¬∃ key, storage.schema.primaryKey item = .ok key := by
    simp only [KeySchema.primaryKey_eq_ok_iff, KeySchema.exists_hasKey_iff]
    push Not
    rfl
  rw [unkeyed]
  constructor
  · rintro ⟨error, fails⟩ ⟨key, keyed⟩
    have failed := fails Unit fun _ => .ok ()
    rw [putIf, keyed] at failed
    cases failed
  · intro noKey
    cases keyed : storage.schema.primaryKey item with
    | ok key => exact absurd ⟨key, keyed⟩ noKey
    | error error =>
        refine ⟨error, fun ε check => ?_⟩
        rw [putIf, keyed]

/-- A table without items answers all calls as the empty map does.  After the calls each
item lies under its own key, and a write that is then refused shows in no later answer
and no later read. -/
theorem answers_refine_map
    (schema : KeySchema)
    (indexes : NameMap KeySchema)
    (calls : List Call) :
    let start : Storage := ⟨schema, indexes, []⟩
    let table := (answers answer start calls).2
    (answers answer start calls).1 = (answers (ItemMap.answer schema) ∅ calls).1 ∧
      (∀ entry ∈ table.partitions, ∀ slot ∈ entry.2,
        ∃ key, schema.primaryKey slot.2 = .ok key ∧ key.isSame ⟨entry.1, slot.1⟩) ∧
      (∀ item,
        (∃ error, ∀ (ε : Type) (check : Option Item → Except ε Unit),
            table.putIf item check = (.error (.key error), table)) ↔
          ∃ member ∈ schema.attributes, ∀ value, ¬member.Holds item value) ∧
      ∀ write, (table.write write).1.isError → ∀ later,
        (answers answer (table.write write).2 later).1 = (answers answer table later).1 ∧
          ∀ request, (answers answer (table.write write).2 later).2.read request =
            (answers answer table later).2.read request := by
  intro start table
  -- The table and the map go through the calls side by side.
  have run := answers_of_simulation
    (fun (storage : Storage) (map : ItemMap) call
      (represents : Represents schema map storage) => represents.answer_eq call)
    (.empty schema indexes) calls
  have represents : Represents schema _ table := run.2
  refine ⟨run.1, ?_, ?_, ?_⟩
  · rw [← represents.schema]
    exact fun entry member => (represents.sound.partitions entry member).filed
  · rw [← represents.schema]
    exact table.putIf_eq_key_error_iff
  · intro write refused later
    rw [write_snd]
    have same := (represents.sound.after_alike refused).answers_eq later
    exact ⟨same.1, same.2.read_eq⟩

end Storage

end ItemTable
