import ItemTable.Proofs.KeyCondition.Evaluation
import ItemTable.Proofs.Storage.Pages

/-!
# Brute force

A full read can be told without partitions, positions and pages: look at every
item of the table, take those of which the key condition holds, and sort them by
their keys.  What remains for a read from its beginning are the same items in the
same order.
-/

namespace ItemTable

/-! ## The items one by one -/

/-- Whether a condition can be evaluated on an item and holds. -/
def Condition.isTrue (condition : Condition) (item : Item) : Bool :=
  match condition.holds item with
  | .ok value => value
  | .error _ => false

/-- What an item is sorted by: its partition key and its sort key, or its sort key
alone when the items of one partition are read backward. -/
def KeySchema.rank (schema : KeySchema) (forward : Bool) (item : Item) : List KeyValue :=
  match schema.primaryKey item with
  | .ok key => if forward then [key.partition, key.sort] else [key.sort]
  | .error _ => []

/-- All items of which a key condition holds, sorted by their keys. -/
def Storage.found
    (storage : Storage)
    (keyCondition : Option Condition)
    (forward : Bool) :
    List Item :=
  let chosen := storage.items.filter fun item =>
    keyCondition.all fun condition => condition.isTrue item
  chosen.mergeSort fun left right =>
    (directed forward (storage.schema.rank forward left)
      (storage.schema.rank forward right)).isLE

/-! ## What remains of a table -/

namespace ReadView

variable {view : ReadView} {storage : Storage} {forward : Bool}

/-- The rows of a table are in the order of the ranks of their items. -/
theorem rank_of_precedes
    {left right : Row}
    (ofTable : view.index = none)
    (whole : view.partition = none → forward = true)
    (leftSelected : view.selects left.2)
    (rightSelected : view.selects right.2)
    (leftPlaced : view.position? left.2 = some left.1)
    (rightPlaced : view.position? right.2 = some right.1)
    (precedes : Row.Precedes forward left right) :
    directed forward (view.table.rank forward left.2) (view.table.rank forward right.2) =
      .lt := by
  rcases selects_iff.mp leftSelected with ⟨leftKey, leftKeyed, leftPartition, -⟩
  rcases selects_iff.mp rightSelected with ⟨rightKey, rightKeyed, rightPartition, -⟩
  have schema : view.schema = view.table := by
    rw [ReadView.schema, ofTable]
    rfl
  rw [schema] at leftKeyed rightKeyed
  rw [position?_of_table ofTable leftKeyed] at leftPlaced
  rw [position?_of_table ofTable rightKeyed] at rightPlaced
  rw [Row.Precedes] at precedes
  rw [← Option.some.inj leftPlaced, ← Option.some.inj rightPlaced] at precedes
  unfold KeySchema.rank
  rw [leftKeyed, rightKeyed]
  cases asked : view.partition with
  | none =>
      rw [whole asked] at precedes ⊢
      simpa [placeOf, ofTable, asked] using precedes
  | some value =>
      have samePartition : compare leftKey.partition rightKey.partition = .eq :=
        Std.TransCmp.eq_trans (Std.OrientedCmp.eq_symm (leftPartition value asked))
          (rightPartition value asked)
      cases forward with
      | false => simpa [placeOf, ofTable, asked] using precedes
      | true =>
          simpa [directed, placeOf, ofTable, asked, List.compare_cons_cons, samePartition]
            using precedes

/-- The items that remain from the beginning are in strict order of their ranks. -/
theorem remaining_ranks
    (sound : storage.Sound)
    (keys : storage.schema = view.table)
    (ofTable : view.index = none)
    (whole : view.partition = none → forward = true) :
    ((view.remaining storage forward ∅).map Prod.snd).Pairwise fun left right =>
      directed forward (view.table.rank forward left) (view.table.rank forward right) = .lt := by
  rw [List.pairwise_map]
  apply (remaining_sorted sound keys forward ∅).imp_of_mem
  intro left right leftMember rightMember precedes
  rcases ((mem_remaining sound keys).mp leftMember).1 with ⟨-, leftSelected, leftPlaced⟩
  rcases ((mem_remaining sound keys).mp rightMember).1 with ⟨-, rightSelected, rightPlaced⟩
  exact rank_of_precedes ofTable whole leftSelected rightSelected leftPlaced rightPlaced precedes

end ReadView

namespace Storage

variable {storage : Storage} {view : ReadView} {forward : Bool}

/-- If a key condition holds of the items that a view selects, then what is found item
by item is what remains from the beginning. -/
theorem Sound.found_eq
    {keyCondition : Option Condition}
    (sound : storage.Sound)
    (keys : storage.schema = view.table)
    (ofTable : view.index = none)
    (whole : view.partition = none → forward = true)
    (agrees : ∀ item ∈ storage.items,
      (keyCondition.all fun condition => condition.isTrue item) = view.selects item) :
    storage.found keyCondition forward = (view.remaining storage forward ∅).map Prod.snd := by
  have ranks := ReadView.remaining_ranks sound keys ofTable whole
  rw [← keys] at ranks
  have distinct : ((view.remaining storage forward ∅).map Prod.snd).Nodup := by
    apply ranks.imp
    rintro left right less rfl
    have self : directed forward (storage.schema.rank forward left)
        (storage.schema.rank forward left) = .eq :=
      Std.ReflCmp.compare_self
    rw [self] at less
    cases less
  have chosen :
      (storage.items.filter fun item =>
          keyCondition.all fun condition => condition.isTrue item).Perm
        ((view.remaining storage forward ∅).map Prod.snd) := by
    rw [List.perm_ext_iff_of_nodup (sound.items_nodup.filter _) distinct]
    intro item
    rw [ReadView.mem_remaining_items sound keys rfl, List.mem_filter]
    refine and_congr_right fun stored => ?_
    rw [agrees item stored]
  have sorted := by
    apply @mergeSort_strict Item _ (directed forward) _ (storage.schema.rank forward)
      (storage.items.filter fun item =>
        keyCondition.all fun condition => condition.isTrue item)
    refine (chosen.pairwise_iff ?_).mpr (ranks.imp ?_)
    · intro left right different equal
      exact different (Std.OrientedCmp.eq_symm equal)
    · intro left right less equal
      rw [less] at equal
      cases equal
  refine List.Perm.eq_of_pairwise ?_ sorted ranks ((List.mergeSort_perm _ _).trans chosen)
  intro left right _ _ less greater
  exact absurd greater (Std.OrientedCmp.not_lt_of_lt less)

end Storage

end ItemTable
