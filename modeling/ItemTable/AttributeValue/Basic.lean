import ItemTable.NameMap
import ItemTable.Number.Shortest
import ItemTable.Text.Quoted

/-!
# Attribute values and items

An attribute value is a scalar, a set of scalars, a list or a map of further
values.  Numbers are kept as the text that denotes them, so no precision is
lost.  An item is a map from attribute names to values.

Two values are equal exactly when they are built the same way; a map has no
order of its own, because `NameMap` lists its names in increasing order.
-/

namespace ItemTable

/-- A value of an attribute. -/
inductive AttributeValue where
  | string (text : String)
  /-- A number, as the text that denotes it. -/
  | number (text : String)
  | binary (bytes : List UInt8)
  | stringSet (texts : List String)
  | numberSet (texts : List String)
  | binarySet (members : List (List UInt8))
  | bool (value : Bool)
  | null (value : Bool)
  | list (items : List AttributeValue)
  | map (fields : NameMap AttributeValue)

/-- An item: attribute names with their values. -/
abbrev Item :=
  NameMap AttributeValue

namespace AttributeValue

instance : Inhabited AttributeValue := ⟨null true⟩

/-! ## Equality -/

mutual

/-- Whether two values are built the same way. -/
def same : AttributeValue → AttributeValue → Bool
  | string left, string right => left == right
  | number left, number right => left == right
  | binary left, binary right => left == right
  | stringSet left, stringSet right => left == right
  | numberSet left, numberSet right => left == right
  | binarySet left, binarySet right => left == right
  | bool left, bool right => left == right
  | null left, null right => left == right
  | list left, list right => sameItems left right
  | map left, map right =>
      if names : left.names = right.names then
        (List.finRange left.names.length).all fun index =>
          same (left.value index) (right.value (index.cast (congrArg List.length names)))
      else
        false
  | _, _ => false

/-- Whether two lists of values are built the same way. -/
def sameItems : List AttributeValue → List AttributeValue → Bool
  | [], [] => true
  | left :: lefts, right :: rights => same left right && sameItems lefts rights
  | _, _ => false

end

mutual

/-- Values that are built the same way are equal. -/
theorem same_iff
    (left right : AttributeValue) :
    same left right = true ↔ left = right := by
  cases left with
  | list lefts =>
      cases right <;> simp [same]
      exact sameItems_iff lefts _
  | map lefts =>
      cases right with
      | map rights =>
          obtain ⟨names, increasing, value⟩ := lefts
          obtain ⟨otherNames, otherIncreasing, otherValue⟩ := rights
          simp only [same, map.injEq, NameMap.mk.injEq]
          split
          next names =>
            subst names
            simp only [List.all_eq_true, List.mem_finRange, forall_const, true_and,
              heq_eq_eq]
            constructor
            · intro values
              funext index
              exact (same_iff (value index) _).1 (values index)
            · intro values index
              exact (same_iff (value index) _).2 (congrFun values index)
          next names => simp_all
      | _ => simp [same]
  | _ => cases right <;> simp [same]

/-- Lists of values that are built the same way are equal. -/
theorem sameItems_iff
    (lefts rights : List AttributeValue) :
    sameItems lefts rights = true ↔ lefts = rights := by
  cases lefts with
  | nil => cases rights <;> simp [sameItems]
  | cons left lefts =>
      cases rights with
      | nil => simp [sameItems]
      | cons right rights =>
          simp [sameItems, same_iff left right, sameItems_iff lefts rights]

end

instance : DecidableEq AttributeValue := fun left right =>
  decidable_of_iff _ (same_iff left right)

/-! ## Kinds and parts -/

/-- The name of the kind of a value. -/
def kind : AttributeValue → String
  | string _ => "S"
  | number _ => "N"
  | binary _ => "B"
  | stringSet _ => "SS"
  | numberSet _ => "NS"
  | binarySet _ => "BS"
  | bool _ => "BOOL"
  | null _ => "NULL"
  | list _ => "L"
  | map _ => "M"

/-- Whether the value may be a key attribute: a string, a number or a binary. -/
def isKeyKind : AttributeValue → Bool
  | string _ | number _ | binary _ => true
  | _ => false

/-- The text of a string. -/
def string? : AttributeValue → Option String
  | string text => some text
  | _ => none

/-- The text of a number. -/
def number? : AttributeValue → Option String
  | number text => some text
  | _ => none

/-- The bytes of a binary. -/
def binary? : AttributeValue → Option (List UInt8)
  | binary bytes => some bytes
  | _ => none

/-- The truth value of a boolean. -/
def bool? : AttributeValue → Option Bool
  | bool value => some value
  | _ => none

/-- The items of a list. -/
def list? : AttributeValue → Option (List AttributeValue)
  | list items => some items
  | _ => none

/-- The fields of a map. -/
def map? : AttributeValue → Option Item
  | map fields => some fields
  | _ => none

/-! ## Numbers -/

/-- The number with the decimal digits of an integer. -/
def ofInt (value : Int) : AttributeValue :=
  number (toString value)

/-- The number with the decimal digits of a natural number. -/
def ofNat (value : Nat) : AttributeValue :=
  number value.repr

/-- The number with the shortest digits of a binary64 number. -/
def ofBinary64 (value : Binary64) : AttributeValue :=
  number value.text

/-- The number with the shortest digits of a binary32 number. -/
def ofBinary32 (value : Binary32) : AttributeValue :=
  number value.text

/-! ## Display -/

/-- A short text for messages: scalars in full, other binaries and collections
by their size. -/
def display (value : AttributeValue) : String :=
  "\x7b" ++ value.kind ++ ": " ++ content value ++ "\x7d"
where
  content : AttributeValue → String
    | string text | number text => text
    | binary bytes => toString bytes.length ++ " bytes"
    | stringSet texts | numberSet texts => Text.quoteList texts
    | binarySet members => toString members.length ++ " items"
    | bool value | null value => toString value
    | list items => toString items.length ++ " items"
    | map fields => toString fields.size ++ " keys"

end AttributeValue

end ItemTable
