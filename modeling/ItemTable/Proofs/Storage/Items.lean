import ItemTable.Proofs.Storage.Soundness

/-!
# The items of a sound table

In a sound table no two items have the same key, and the partition of an item
is found by the partition key of the item.
-/

namespace ItemTable

/-- Among entries with keys apart, a key finds the entry that stands under it. -/
theorem find?_of_apart
    {β : Type}
    {entries : List (KeyValue × β)}
    {entry : KeyValue × β}
    {key : KeyValue}
    (apart : entries.Pairwise fun left right => left.1.order right.1 ≠ .eq)
    (member : entry ∈ entries)
    (same : entry.1.order key = .eq) :
    entries.find? (fun candidate => (candidate.1.order key).isEq) = some entry := by
  induction apart with
  | nil => cases member
  | @cons head rest different _ ih =>
      rcases List.mem_cons.mp member with rfl | member
      · exact List.find?_cons_of_pos (Ordering.isEq_iff_eq_eq.mpr same)
      · have headDiffers : ¬(head.1.order key).isEq := by
          intro headSame
          apply different entry member
          exact
            Std.TransCmp.eq_trans (Ordering.isEq_iff_eq_eq.mp headSame)
              (Std.OrientedCmp.eq_symm same)
        rw [List.find?_cons, Bool.eq_false_iff.mpr headDiffers]
        exact ih member

namespace Storage

variable {storage : Storage} {item : Item} {key : PrimaryKey}

theorem mem_items :
    item ∈ storage.items ↔
      ∃ entry ∈ storage.partitions, item ∈ entry.2.map Prod.snd := by
  simp [items]

theorem length_items (storage : Storage) : storage.items.length = storage.itemCount := by
  rw [items, itemCount]
  induction storage.partitions with
  | nil => rfl
  | cons entry entries ih =>
      rw [List.flatMap_cons, List.length_append, ih, List.map_cons, total, List.length_map]

/-! ## Keys of the items -/

/-- An item of a partition has a key with the partition key of its partition. -/
theorem Sound.keyed_of_mem
    {entry : KeyValue × Partition}
    (sound : storage.Sound)
    (member : entry ∈ storage.partitions)
    (inside : item ∈ entry.2.map Prod.snd) :
    ∃ key,
      storage.schema.primaryKey item = .ok key ∧ key.partition.order entry.1 = .eq := by
  rcases List.mem_map.mp inside with ⟨place, stored, rfl⟩
  rcases (sound.partitions entry member).filed place stored with ⟨key, keyed, isSame⟩
  exact ⟨key, keyed, (PrimaryKey.isSame_iff.mp isSame).1⟩

theorem Sound.keyed
    (sound : storage.Sound)
    (stored : item ∈ storage.items) :
    ∃ key, storage.schema.primaryKey item = .ok key := by
  rcases mem_items.mp stored with ⟨entry, member, inside⟩
  rcases sound.keyed_of_mem member inside with ⟨key, keyed, -⟩
  exact ⟨key, keyed⟩

/-- Two items do not have one key. -/
def Apart (schema : KeySchema) (left right : Item) : Prop :=
  ∀ leftKey rightKey,
    schema.primaryKey left = .ok leftKey →
    schema.primaryKey right = .ok rightKey →
    leftKey.isSame rightKey = false

theorem Apart.of_keys
    {schema : KeySchema}
    {left right : Item}
    {leftKey rightKey : PrimaryKey}
    (leftKeyed : schema.primaryKey left = .ok leftKey)
    (rightKeyed : schema.primaryKey right = .ok rightKey)
    (different : leftKey.isSame rightKey = false) :
    Apart schema left right := by
  intro leftFound rightFound leftEqual rightEqual
  rw [leftKeyed] at leftEqual
  rw [rightKeyed] at rightEqual
  cases leftEqual
  cases rightEqual
  exact different

theorem Sound.apart_of_partition
    {entry : KeyValue × Partition}
    (sound : storage.Sound)
    (member : entry ∈ storage.partitions) :
    (entry.2.map Prod.snd).Pairwise (Apart storage.schema) := by
  have inside := sound.partitions entry member
  rw [List.pairwise_map]
  apply inside.increasing.imp_of_mem
  intro left right leftMember rightMember less
  rcases inside.filed left leftMember with ⟨leftKey, leftKeyed, leftSame⟩
  rcases inside.filed right rightMember with ⟨rightKey, rightKeyed, rightSame⟩
  refine .of_keys leftKeyed rightKeyed ?_
  rw [PrimaryKey.isSame_iff] at leftSame rightSame
  rw [← Bool.not_eq_true, PrimaryKey.isSame_iff]
  rintro ⟨-, sorts⟩
  have equal : left.1.order right.1 = .eq :=
    Std.TransCmp.eq_trans (Std.OrientedCmp.eq_symm leftSame.2)
      (Std.TransCmp.eq_trans sorts rightSame.2)
  rw [less] at equal
  cases equal

/-- No two items of a table have one key. -/
theorem Sound.items_apart (sound : storage.Sound) :
    storage.items.Pairwise (Apart storage.schema) := by
  rw [items, List.pairwise_flatMap]
  constructor
  · intro entry member
    exact sound.apart_of_partition member
  · apply sound.apart.imp_of_mem
    intro left right leftMember rightMember different leftItem leftInside rightItem rightInside
    rcases sound.keyed_of_mem leftMember leftInside with ⟨leftKey, leftKeyed, leftSame⟩
    rcases sound.keyed_of_mem rightMember rightInside with ⟨rightKey, rightKeyed, rightSame⟩
    refine .of_keys leftKeyed rightKeyed ?_
    rw [← Bool.not_eq_true, PrimaryKey.isSame_iff]
    rintro ⟨partitions, -⟩
    apply different
    exact
      Std.TransCmp.eq_trans (Std.OrientedCmp.eq_symm leftSame)
        (Std.TransCmp.eq_trans partitions rightSame)

/-- No item is stored twice. -/
theorem Sound.items_nodup (sound : storage.Sound) : storage.items.Nodup := by
  apply sound.items_apart.imp_of_mem
  rintro left right stored - apart rfl
  rcases sound.keyed stored with ⟨key, keyed⟩
  have different := apart key key keyed keyed
  rw [key.isSame_refl] at different
  cases different

/-! ## The partition of an item -/

theorem mem_items_of_mem_partition
    {value : KeyValue}
    (inside : item ∈ ((storage.partition? value).getD []).map Prod.snd) :
    item ∈ storage.items := by
  cases found : storage.partition? value with
  | none =>
      rw [found] at inside
      cases inside
  | some partition =>
      rw [found] at inside
      rcases Option.map_eq_some_iff.mp found with ⟨entry, first, rfl⟩
      exact mem_items.mpr ⟨entry, List.mem_of_find?_eq_some first, inside⟩

/-- An item lies in the partition that its partition key finds. -/
theorem Sound.mem_partition
    {value : KeyValue}
    (sound : storage.Sound)
    (stored : item ∈ storage.items)
    (keyed : storage.schema.primaryKey item = .ok key)
    (same : key.partition.order value = .eq) :
    item ∈ ((storage.partition? value).getD []).map Prod.snd := by
  rcases mem_items.mp stored with ⟨entry, member, inside⟩
  rcases sound.keyed_of_mem member inside with ⟨found, foundKeyed, filed⟩
  rw [keyed] at foundKeyed
  cases foundKeyed
  have entrySame : entry.1.order value = .eq :=
    Std.TransCmp.eq_trans (Std.OrientedCmp.eq_symm filed) same
  rw [Storage.partition?, find?_of_apart sound.apart member entrySame]
  exact inside

end Storage

end ItemTable
