import ItemTable.KeySchema
import ItemTable.Proofs.NameMap
import ItemTable.Proofs.Sequencing

/-!
# The order of keys

Key values are ordered by their kinds and then by one of three contents, so the
order of key values is transitive.  It is coarser than equality: two numerals of
one number are different key values in one place of the order.  A hasher is fed
alike with two key values exactly if they are in one place.

The key of an item depends on nothing but the key attributes.  An item that
agrees with another on these has the same key, in particular the item that
`KeySchema.copyKey` makes.
-/

namespace ItemTable

namespace KeyValue

/-! ## Key values -/

/-- The text by which strings are ordered among themselves. -/
def orderedText : KeyValue → String
  | string text => text
  | _ => ""

/-- The place of a number among the numbers. -/
def orderedNumber : KeyValue → Int
  | number text => (numeric text).rank
  | _ => 0

/-- The bytes by which binaries are ordered among themselves. -/
def orderedBytes : KeyValue → List UInt8
  | binary bytes => bytes
  | _ => []

/-- Key values are compared by their kinds first, then by their contents. -/
theorem order_eq_compareLex :
    KeyValue.order =
      compareLex (compareOn kindRank)
        (compareLex (compareOn orderedText)
          (compareLex (compareOn orderedNumber) (compareOn orderedBytes))) := by
  funext left right
  cases left <;> cases right <;>
    simp [order, compareLex, compareOn, kindRank, orderedText, orderedNumber, orderedBytes,
      Nat.compare_eq_lt.mpr, Nat.compare_eq_gt.mpr]

instance : Std.TransCmp KeyValue.order := by
  rw [order_eq_compareLex]
  infer_instance

instance : Std.TransOrd KeyValue :=
  inferInstanceAs (Std.TransCmp KeyValue.order)

/-- Key values in one place of the order are fed to the hasher alike, so a hash table
finds a key value under each of its texts. -/
theorem feed_of_order_eq
    {left right : KeyValue}
    (same : left.order right = .eq) :
    left.feed = right.feed := by
  cases left with
  | string left =>
      cases right with
      | string right =>
          have equal : left = right := Std.LawfulEqOrd.eq_of_compare same
          rw [equal]
      | _ => cases same
  | number left =>
      cases right with
      | number right =>
          have equal : numeric left = numeric right :=
            Binary64.rank_injective (Std.LawfulEqOrd.eq_of_compare same)
          rw [feed, feed, equal]
      | _ => cases same
  | binary left =>
      cases right with
      | binary right =>
          have equal : left = right := Std.LawfulEqOrd.eq_of_compare same
          rw [equal]
      | _ => cases same
  | absent =>
      cases right with
      | absent => rfl
      | _ => cases same

/-- Key values that are fed to the hasher alike are in one place of the order. -/
theorem order_eq_of_feed
    {left right : KeyValue}
    (alike : left.feed = right.feed) :
    left.order right = .eq := by
  cases left with
  | string left =>
      cases right with
      | string right =>
          obtain rfl : left = right := by simpa [feed] using alike
          exact Std.ReflCmp.compare_self
      | _ => simp [feed] at alike
  | number left =>
      cases right with
      | number right =>
          have same : numeric left = numeric right := by
            simp only [feed, List.cons.injEq, AttributeValue.Symbol.bool.injEq,
              AttributeValue.Symbol.length.injEq, true_and, and_true] at alike
            exact congrArg₂ Binary64.mk alike.1 alike.2
          rw [order, same]
          exact Std.ReflCmp.compare_self
      | _ => simp [feed] at alike
  | binary left =>
      cases right with
      | binary right =>
          obtain rfl : left = right := by simpa [feed] using alike
          exact Std.ReflCmp.compare_self
      | _ => simp [feed] at alike
  | absent =>
      cases right with
      | absent => rfl
      | _ => simp [feed] at alike

/-- Key values are totally ordered, and the hasher is fed alike with two of them exactly
if they are in one place of the order. -/
theorem order_total_and_hashed :
    (∀ key : KeyValue, key.order key = .eq) ∧
      (∀ first second : KeyValue, second.order first = (first.order second).swap) ∧
      (∀ first second third : KeyValue,
        first.order second ≠ .gt → second.order third ≠ .gt → first.order third ≠ .gt) ∧
      (∀ first second : KeyValue,
        first.order second = .eq ↔ first.feed = second.feed) := by
  refine ⟨fun key => Std.ReflCmp.compare_self, fun first second => Std.OrientedCmp.eq_swap,
    ?transitive, fun first second => ⟨feed_of_order_eq, order_eq_of_feed⟩⟩
  case transitive =>
    intro first second third below above
    have firstStep : (first.order second).isLE := Ordering.isLE_iff_ne_gt.mpr below
    have secondStep : (second.order third).isLE := Ordering.isLE_iff_ne_gt.mpr above
    exact Ordering.isLE_iff_ne_gt.mp (Std.TransCmp.isLE_trans firstStep secondStep)

/-- A negative NaN is below the number two, which is below a text that is no number, and the
two zeros are one to the hasher. -/
theorem order_total_and_hashed_numerals :
    (number "-nan").order (.number "ten") ≠ .gt ∧
      (number "-0").feed = (number "0.0").feed := by
  rcases order_total_and_hashed with ⟨-, -, transitive, hashed⟩
  have below : (number "-nan").order (.number "2") = .lt := by decide +kernel
  have above : (number "2").order (.number "ten") = .lt := by decide +kernel
  have zeros : (number "-0").order (.number "0.0") = .eq := by decide +kernel
  constructor
  · exact transitive _ (.number "2") _ (by rw [below]; decide) (by rw [above]; decide)
  · exact (hashed _ _).mp zeros

/-- Of two key values in different places only one is in the place of a third. -/
theorem apart_of_isEq
    {place key other : KeyValue}
    (here : (place.order other).isEq)
    (apart : ¬(place.order key).isEq) :
    ¬(key.order other).isEq := by
  intro same
  apply apart
  rw [Ordering.isEq_iff_eq_eq] at here same ⊢
  exact Std.TransCmp.eq_trans here (Std.OrientedCmp.eq_symm same)

end KeyValue

/-! ## Keys of items -/

/-- Whether two keys are one to a table: the order tells neither their partition
keys nor their sort keys apart. -/
def PrimaryKey.isSame (left right : PrimaryKey) : Bool :=
  (left.partition.order right.partition).isEq && (left.sort.order right.sort).isEq

theorem PrimaryKey.isSame_iff
    {left right : PrimaryKey} :
    left.isSame right ↔
      left.partition.order right.partition = .eq ∧ left.sort.order right.sort = .eq := by
  simp [isSame, Ordering.isEq_iff_eq_eq]

namespace PrimaryKey

variable {first second third : PrimaryKey}

theorem isSame_refl (key : PrimaryKey) : key.isSame key :=
  isSame_iff.mpr ⟨Std.ReflCmp.compare_self, Std.ReflCmp.compare_self⟩

theorem isSame_symm (same : first.isSame second) : second.isSame first := by
  rw [isSame_iff] at same ⊢
  exact ⟨Std.OrientedCmp.eq_symm same.1, Std.OrientedCmp.eq_symm same.2⟩

theorem isSame_trans
    (same : first.isSame second)
    (again : second.isSame third) :
    first.isSame third := by
  rw [isSame_iff] at same again ⊢
  exact ⟨Std.TransCmp.eq_trans same.1 again.1, Std.TransCmp.eq_trans same.2 again.2⟩

end PrimaryKey

namespace KeyAttribute

variable {member : KeyAttribute} {item : Item} {value : KeyValue}

theorem keyValue_eq_ok
    {stored : AttributeValue} :
    member.keyValue stored = .ok value ↔ KeyValue.ofValue? member.kind stored = some value := by
  rw [keyValue]
  cases KeyValue.ofValue? member.kind stored with
  | none => exact ⟨nofun, nofun⟩
  | some found =>
      constructor
      · rintro ⟨⟩
        rfl
      · rintro ⟨⟩
        rfl

/-- An item holds a key value for a key attribute: it has the attribute, with a value
of the kind. -/
def Holds (member : KeyAttribute) (item : Item) (value : KeyValue) : Prop :=
  ∃ stored,
    item.find? member.name = some stored ∧ KeyValue.ofValue? member.kind stored = some value

theorem ofItem_eq_ok : member.ofItem item = .ok value ↔ member.Holds item value := by
  rw [ofItem, Holds]
  cases item.find? member.name with
  | none =>
      constructor
      · intro found
        cases found
      · rintro ⟨_, absent, -⟩
        cases absent
  | some stored =>
      constructor
      · intro typed
        exact ⟨stored, rfl, keyValue_eq_ok.mp typed⟩
      · rintro ⟨_, ⟨⟩, ofKind⟩
        exact keyValue_eq_ok.mpr ofKind

end KeyAttribute

namespace KeySchema

variable {schema : KeySchema} {item : Item} {key : PrimaryKey}

/-- A key is that of an item: the item holds its partition key, and its sort key if
the schema has one. -/
def HasKey (schema : KeySchema) (item : Item) (key : PrimaryKey) : Prop :=
  schema.partition.Holds item key.partition ∧
    match schema.sort with
    | some member => member.Holds item key.sort
    | none => key.sort = .absent

theorem primaryKey_eq_ok_iff :
    schema.primaryKey item = .ok key ↔ schema.HasKey item key := by
  rw [primaryKey, HasKey]
  constructor
  · intro keyed
    rcases bind_eq_ok.mp keyed with ⟨value, partition, sorted⟩
    cases sort : schema.sort with
    | none =>
        rw [sort] at sorted
        cases sorted
        exact ⟨KeyAttribute.ofItem_eq_ok.mp partition, rfl⟩
    | some member =>
        rw [sort] at sorted
        rcases bind_eq_ok.mp sorted with ⟨second, ofSort, isKey⟩
        cases isKey
        exact ⟨KeyAttribute.ofItem_eq_ok.mp partition, KeyAttribute.ofItem_eq_ok.mp ofSort⟩
  · rcases key with ⟨value, second⟩
    rintro ⟨partition, sorted⟩
    rw [KeyAttribute.ofItem_eq_ok.mpr partition, ok_bind]
    cases sort : schema.sort with
    | none =>
        rw [sort] at sorted
        cases sorted
        rfl
    | some member =>
        rw [sort] at sorted
        dsimp only
        rw [KeyAttribute.ofItem_eq_ok.mpr sorted]
        rfl

theorem HasKey.sort
    {member : KeyAttribute}
    (hasKey : schema.HasKey item key)
    (isSort : member ∈ schema.sort) :
    member.Holds item key.sort := by
  rcases hasKey with ⟨-, sorted⟩
  rw [Option.mem_def.mp isSort] at sorted
  exact sorted

/-- An item has a key exactly if it holds a key value for each key attribute. -/
theorem exists_hasKey_iff :
    (∃ key, schema.HasKey item key) ↔
      ∀ member ∈ schema.attributes, ∃ value, member.Holds item value := by
  rw [attributes]
  constructor
  · rintro ⟨key, hasKey⟩ member listed
    rcases List.mem_cons.mp listed with rfl | isSort
    · exact ⟨key.partition, hasKey.1⟩
    · exact ⟨key.sort, hasKey.sort (Option.mem_toList.mp isSort)⟩
  · intro holds
    rcases holds schema.partition List.mem_cons_self with ⟨value, partition⟩
    cases sort : schema.sort with
    | none =>
        refine ⟨⟨value, .absent⟩, partition, ?_⟩
        rw [sort]
    | some member =>
        have isSort : member ∈ schema.partition :: schema.sort.toList := by
          rw [sort]
          exact List.mem_cons_of_mem _ (List.mem_singleton_self member)
        rcases holds member isSort with ⟨second, sorted⟩
        refine ⟨⟨value, second⟩, partition, ?_⟩
        rw [sort]
        exact sorted

theorem isKey_of_mem
    {schema : KeySchema}
    {member : KeyAttribute}
    (listed : member ∈ schema.attributes) :
    schema.isKey member.name := by
  simp only [isKey, List.any_eq_true, beq_iff_eq]
  exact ⟨member, listed, rfl⟩

theorem ofItem_congr
    {member : KeyAttribute}
    {left right : Item}
    (agree : left.find? member.name = right.find? member.name) :
    member.ofItem left = member.ofItem right := by
  simp [KeyAttribute.ofItem, agree]

theorem primaryKey_congr
    {schema : KeySchema}
    {left right : Item}
    (agree : ∀ name, schema.isKey name → left.find? name = right.find? name) :
    schema.primaryKey left = schema.primaryKey right := by
  have agreeAt (member : KeyAttribute) (listed : member ∈ schema.attributes) :
      member.ofItem left = member.ofItem right :=
    ofItem_congr (agree _ (isKey_of_mem listed))
  have partitions := agreeAt schema.partition (by simp [attributes])
  unfold primaryKey
  rw [partitions]
  cases sort : schema.sort with
  | none => rfl
  | some member =>
      have sorts := agreeAt member (by simp [attributes, sort])
      simp only [sorts]

theorem find?_partition_of_primaryKey
    {schema : KeySchema}
    {item : Item}
    {key : PrimaryKey}
    (keyed : schema.primaryKey item = .ok key) :
    (item.find? schema.partition.name).isSome := by
  cases found : item.find? schema.partition.name with
  | some value => rfl
  | none =>
      rw [primaryKey, KeyAttribute.ofItem, found] at keyed
      cases keyed

/-! ## Copies of keys -/

/-- What a copied key adds to the target: the attributes of the item that are
key attributes, over what was there. -/
theorem find?_copyKey
    (schema : KeySchema)
    (item target : Item)
    (name : String) :
    (schema.copyKey item target).find? name =
      if schema.isKey name then
        (item.find? name).or (target.find? name)
      else
        target.find? name := by
  rw [copyKey, isKey]
  induction schema.attributes generalizing target with
  | nil => simp
  | cons member rest ih =>
      rw [List.foldl_cons, ih, List.any_cons]
      cases found : item.find? member.name with
      | none =>
          by_cases this : member.name = name
          · subst this
            simp [found]
          · simp [this]
      | some value =>
          by_cases this : member.name = name
          · subst this
            simp [NameMap.find?_insert, found]
          · have other : name ≠ member.name := fun same => this same.symm
            simp [NameMap.find?_insert, other, this]

end KeySchema

end ItemTable
