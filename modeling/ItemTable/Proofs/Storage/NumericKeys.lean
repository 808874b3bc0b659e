import ItemTable.Proofs.KeyCondition.Clauses
import ItemTable.Proofs.Number.DecimalText
import ItemTable.Proofs.Storage.Pages

/-!
# Numeric keys

Numeric keys are ordered as the binary64 numbers nearest to what they denote.  So a table
keeps items under numbers of at most 15 digits apart, but some longer numbers are one key
to it, and the item that is put last takes the place of the other.
-/

namespace ItemTable

/-- Numeric key values are ordered as the numbers are rounded. -/
theorem KeyValue.order_number (left right : DecimalText) :
    (number left.text).order (.number right.text) =
      compare (Binary64.nearest left.value) (Binary64.nearest right.value) := by
  rcases Option.map_eq_some_iff.mp left.signed_ofText? with ⟨first, read, signed⟩
  rcases Option.map_eq_some_iff.mp right.signed_ofText? with ⟨second, otherRead, otherSigned⟩
  rw [order, numeric, numeric, read, otherRead, Option.getD_some, Option.getD_some,
    Binary64.compare_rank_unsignedZero, signed, otherSigned]

/-- Whether a decimal has at most 15 digits and is zero or in the range of normal binary64
numbers. -/
def DecimalText.IsPlain (decimal : DecimalText) : Prop :=
  Binary64.IsOrdinary decimal.value ∧ Binary64.HasDigits 15 decimal.value

theorem DecimalText.hasDigits_ofNat
    {number count : Nat}
    (small : number < 10 ^ count) :
    Binary64.HasDigits count (ofNat number).value := by
  refine ⟨number, 0, ?_, ?_⟩
  · rw [Nat.abs_cast]
    exact_mod_cast small
  · rw [value_ofNat, Int.cast_natCast, zpow_zero, mul_one]

theorem DecimalText.isPlain_ofNat
    {number : Nat}
    (small : number < 10 ^ 15) :
    (ofNat number).IsPlain := by
  refine ⟨?_, hasDigits_ofNat small⟩
  rw [value_ofNat, Binary64.IsOrdinary, Nat.abs_cast]
  rcases number.eq_zero_or_pos with rfl | positive
  · exact .inl Nat.cast_zero
  · have one : (1 : ℚ) ≤ number := by exact_mod_cast positive
    refine .inr ⟨le_trans (zpow_le_one_of_nonpos₀ one_le_two (by decide)) one, ?_⟩
    calc (number : ℚ)
        < 10 ^ 15 := by exact_mod_cast small
      _ ≤ 2 ^ (50 : Int) := by norm_num
      _ ≤ 2 ^ (1024 : Int) := zpow_le_zpow_right₀ one_le_two (by decide)

/-- An item holds one key value for a key attribute at most. -/
theorem KeyAttribute.Holds.unique
    {member : KeyAttribute}
    {item : Item}
    {value other : KeyValue}
    (holds : member.Holds item value)
    (otherHolds : member.Holds item other) :
    value = other := by
  rcases holds with ⟨stored, found, ofKind⟩
  rcases otherHolds with ⟨again, otherFound, otherOfKind⟩
  rw [found] at otherFound
  cases otherFound
  rw [ofKind] at otherOfKind
  exact Option.some.inj otherOfKind

namespace KeySchema

variable {schema : KeySchema} {member : KeyAttribute} {first second : Item}
  {firstKey secondKey : PrimaryKey} {value other : KeyValue}

/-- Items with one key have their values of a key attribute in one place. -/
theorem order_eq_of_isSame
    (listed : member ∈ schema.attributes)
    (holds : member.Holds first value)
    (otherHolds : member.Holds second other)
    (keyed : schema.primaryKey first = .ok firstKey)
    (otherKeyed : schema.primaryKey second = .ok secondKey)
    (same : firstKey.isSame secondKey) :
    value.order other = .eq := by
  have hasKey := primaryKey_eq_ok_iff.mp keyed
  have otherHasKey := primaryKey_eq_ok_iff.mp otherKeyed
  rcases PrimaryKey.isSame_iff.mp same with ⟨samePartition, sameSort⟩
  rcases List.mem_cons.mp listed with rfl | isSort
  · rwa [hasKey.1.unique holds, otherHasKey.1.unique otherHolds] at samePartition
  · have isSort := Option.mem_toList.mp isSort
    rwa [(hasKey.sort isSort).unique holds, (otherHasKey.sort isSort).unique otherHolds] at sameSort

/-- Without a sort key, items have one key if their partition keys are in one place. -/
theorem isSame_of_unsorted
    (unsorted : schema.sort = none)
    (listed : member ∈ schema.attributes)
    (holds : member.Holds first value)
    (otherHolds : member.Holds second other)
    (keyed : schema.primaryKey first = .ok firstKey)
    (otherKeyed : schema.primaryKey second = .ok secondKey)
    (same : value.order other = .eq) :
    firstKey.isSame secondKey := by
  rcases primaryKey_eq_ok_iff.mp keyed with ⟨partition, sort⟩
  rcases primaryKey_eq_ok_iff.mp otherKeyed with ⟨otherPartition, otherSort⟩
  rw [attributes, unsorted, Option.toList_none, List.mem_singleton] at listed
  subst listed
  rw [unsorted] at sort otherSort
  refine PrimaryKey.isSame_iff.mpr ⟨?_, ?_⟩
  · rwa [partition.unique holds, otherPartition.unique otherHolds]
  · rw [sort, otherSort]
    rfl

end KeySchema

namespace Storage

theorem item?_after_unchecked
    {item : Item}
    {key : PrimaryKey}
    (storage : Storage)
    (keyed : storage.schema.primaryKey item = .ok key)
    (other : PrimaryKey) :
    (storage.after (unchecked item)).item? other =
      if key.isSame other then some item else storage.item? other := by
  rcases @putIf_cases Empty storage item fun _ => .ok () with
    ⟨error, failed, -⟩ | ⟨_, _, -, refused, -⟩ | ⟨found, ofItem, -, -, stored⟩
  · rw [keyed] at failed
    cases failed
  · cases refused
  · rw [keyed] at ofItem
    cases ofItem
    exact stored other

/-- After two puts a key finds the item that was put under it last. -/
theorem item?_afterAll_two_unchecked
    {first second : Item}
    {firstKey secondKey : PrimaryKey}
    (storage : Storage)
    (keyed : storage.schema.primaryKey first = .ok firstKey)
    (otherKeyed : storage.schema.primaryKey second = .ok secondKey)
    (other : PrimaryKey) :
    (storage.afterAll [unchecked first, unchecked second]).item? other =
      if secondKey.isSame other then some second
      else if firstKey.isSame other then some first
      else storage.item? other := by
  have sameSchema := (storage.after_schema (unchecked first)).1
  rw [← sameSchema] at otherKeyed
  exact (item?_after_unchecked _ otherKeyed other).trans
    (congrArg _ (storage.item?_after_unchecked keyed other))

/-- Two items that are put into a table are both found if their values of a key attribute
are told apart.  If they are not, and there is no other key attribute, the second takes the
place of the first. -/
theorem found_after_two_puts
    {member : KeyAttribute}
    {first second : Item}
    {firstKey secondKey : PrimaryKey}
    {value other : KeyValue}
    (storage : Storage)
    (listed : member ∈ storage.schema.attributes)
    (holds : member.Holds first value)
    (otherHolds : member.Holds second other)
    (keyed : storage.schema.primaryKey first = .ok firstKey)
    (otherKeyed : storage.schema.primaryKey second = .ok secondKey) :
    let twice := storage.afterAll [unchecked first, unchecked second]
    twice.item? secondKey = some second ∧
      (value.order other ≠ .eq → twice.item? firstKey = some first) ∧
      (value.order other = .eq → storage.schema.sort = none →
        twice.item? firstKey = some second) := by
  intro twice
  have found := storage.item?_afterAll_two_unchecked keyed otherKeyed
  refine ⟨?_, ?_, ?_⟩
  · rw [found, secondKey.isSame_refl, if_pos rfl]
  · intro apart
    have different : ¬secondKey.isSame firstKey := fun same =>
      apart (KeySchema.order_eq_of_isSame listed holds otherHolds keyed otherKeyed
        (PrimaryKey.isSame_symm same))
    rw [found, if_neg different, firstKey.isSame_refl, if_pos rfl]
  · intro same unsorted
    have isSame := KeySchema.isSame_of_unsorted unsorted listed holds otherHolds keyed
      otherKeyed same
    rw [found, PrimaryKey.isSame_symm isSame, if_pos rfl]

/-- Numeric keys are ordered as what they denote is rounded: equal numbers are one key, keys
that are told apart are in the order of the numbers, and normal numbers of at most 15 digits
are always in their order.  Two items that are put under numbers that are told apart are
both found; otherwise the second takes the place of the first, if there is no other key
attribute. -/
theorem numeric_keys_told_apart (left right : DecimalText) :
    let order := (KeyValue.number left.text).order (.number right.text)
    order = compare (Binary64.nearest left.value) (Binary64.nearest right.value) ∧
      (left.value = right.value → order = .eq) ∧
      (order ≠ .eq → order = compare left.value right.value) ∧
      (left.IsPlain → right.IsPlain → order = compare left.value right.value) ∧
      ∀ (storage : Storage) (member : KeyAttribute) (first second : Item)
        (firstKey secondKey : PrimaryKey),
        member ∈ storage.schema.attributes →
        member.Holds first (.number left.text) →
        member.Holds second (.number right.text) →
        storage.schema.primaryKey first = .ok firstKey →
        storage.schema.primaryKey second = .ok secondKey →
        let twice := storage.afterAll [unchecked first, unchecked second]
        twice.item? secondKey = some second ∧
          (order ≠ .eq → twice.item? firstKey = some first) ∧
          (order = .eq → storage.schema.sort = none → twice.item? firstKey = some second) := by
  intro order
  have rounded : order = _ := KeyValue.order_number left right
  refine ⟨rounded, ?equal, ?apart, ?plain, ?puts⟩
  case equal =>
    intro equal
    rw [rounded, equal]
    exact Std.ReflOrd.compare_self
  case apart =>
    intro apart
    rw [rounded] at apart ⊢
    exact Binary64.compare_nearest_of_ne apart
  case plain =>
    rintro ⟨ordinary, short⟩ ⟨otherOrdinary, otherShort⟩
    rw [rounded]
    exact Binary64.compare_nearest_of_hasDigits ordinary otherOrdinary short otherShort
  case puts =>
    intro storage member first second firstKey secondKey listed holds otherHolds keyed otherKeyed
    exact storage.found_after_two_puts listed holds otherHolds keyed otherKeyed

/-- An item of a table whose keys are numbers. -/
def numbered (number : DecimalText) (name : String) : Item :=
  .ofList [("id", .number number.text), ("name", .string name)]

/-- A table whose keys are numbers. -/
def numbers : Storage :=
  create ⟨⟨"id", .number⟩, none⟩

/-- Two is before ten, and both are found. -/
theorem numeric_keys_told_apart_two_ten :
    let twice := numbers.afterAll
      [unchecked (numbered (.ofNat 2) "two"), unchecked (numbered (.ofNat 10) "ten")]
    (KeyValue.number "2").order (.number "10") = .lt ∧
      twice.item? ⟨.number "2", .absent⟩ = some (numbered (.ofNat 2) "two") ∧
      twice.item? ⟨.number "10", .absent⟩ = some (numbered (.ofNat 10) "ten") := by
  rcases numeric_keys_told_apart (.ofNat 2) (.ofNat 10) with ⟨-, -, -, ordered, puts⟩
  have less : compare (DecimalText.ofNat 2).value (DecimalText.ofNat 10).value = .lt := by
    rw [compare_lt_iff_lt, DecimalText.value_ofNat, DecimalText.value_ofNat]
    norm_num
  have order := (ordered (DecimalText.isPlain_ofNat (by decide))
    (DecimalText.isPlain_ofNat (by decide))).trans less
  rcases puts numbers ⟨"id", .number⟩ (numbered (.ofNat 2) "two") (numbered (.ofNat 10) "ten")
    ⟨.number "2", .absent⟩ ⟨.number "10", .absent⟩ List.mem_cons_self ⟨_, rfl, rfl⟩
    ⟨_, rfl, rfl⟩ rfl rfl with ⟨second, first, -⟩
  exact ⟨order, first (by rw [order]; decide), second⟩

/-- Two numbers of 16 digits are one key: they are rounded alike, and the second item takes the
place of the first. -/
theorem long_numeric_keys_collide :
    let left := DecimalText.ofNat 9007199254740992
    let right := DecimalText.ofNat 9007199254740993
    let twice := numbers.afterAll
      [unchecked (numbered left "first"), unchecked (numbered right "second")]
    left.value < right.value ∧
      Binary64.HasDigits 16 left.value ∧
      Binary64.HasDigits 16 right.value ∧
      (KeyValue.number left.text).order (.number right.text) = .eq ∧
      (KeyValue.number left.text).order (.number right.text) ≠ compare left.value right.value ∧
      twice.item? ⟨.number left.text, .absent⟩ = some (numbered right "second") ∧
      twice.items = [numbered right "second"] := by
  have less : (DecimalText.ofNat 9007199254740992).value <
      (DecimalText.ofNat 9007199254740993).value := by
    rw [DecimalText.value_ofNat, DecimalText.value_ofNat]
    norm_num
  have same : (KeyValue.number (DecimalText.ofNat 9007199254740992).text).order
      (.number (DecimalText.ofNat 9007199254740993).text) = .eq := by
    decide +kernel
  refine ⟨less, DecimalText.hasDigits_ofNat (by decide),
    DecimalText.hasDigits_ofNat (by decide), same, ?_, ?_, ?_⟩
  · rw [same, compare_lt_iff_lt.mpr less]
    decide
  · rfl
  · rfl

end Storage

end ItemTable
