import ItemTable.Proofs.KeyCondition.Clauses
import ItemTable.Proofs.NameMap
import Mathlib.Data.List.Forall2

/-!
# Equality in conditions

The comparison `=` looks through the spelling of numbers, but only where both of its sides
are numbers.  Inside lists, maps and sets, and for the members that `contains` looks for, a
number is the text that denotes it, and a set is the list of its members.  So membership
and the equality of collections agree with `=` on their members just as far as numbers are
spelled alike and sets are listed alike.
-/

namespace ItemTable

namespace AttributeValue

/-- Whether the comparison `=` holds of two values. -/
def Equates (left right : AttributeValue) : Prop :=
  left.relates .equal right = .ok true

instance (left right : AttributeValue) : Decidable (left.Equates right) :=
  inferInstanceAs (Decidable (_ = _))

/-- Whether two values are spelled alike, if both are numbers. -/
def SpelledAlike (left right : AttributeValue) : Prop :=
  left.number? = right.number?

instance (left right : AttributeValue) : Decidable (left.SpelledAlike right) :=
  inferInstanceAs (Decidable (_ = _))

/-- The members of a list or a set. -/
def members : AttributeValue → List AttributeValue
  | stringSet texts => texts.map string
  | numberSet texts => texts.map number
  | binarySet members => members.map binary
  | list items => items
  | _ => []

/-- Whether the value is a list or a set. -/
def isCollection : AttributeValue → Bool
  | stringSet _ | numberSet _ | binarySet _ | list _ => true
  | _ => false

variable {left right : AttributeValue}

/-! ## What `=` looks at -/

/-- Without an order, only what is built the same way is equal. -/
theorem equates_iff_of_unordered
    (unordered : left.order? right = .ok none) :
    left.Equates right ↔ left = right := by
  rw [Equates, relates, unordered]
  change Except.ok (decide (left = right)) = .ok true ↔ left = right
  rw [Except.ok.injEq, decide_eq_true_iff]

/-- Values that are equal to a comparison are the same, if their numbers are spelled
alike. -/
theorem eq_of_equates
    (equal : left.Equates right)
    (spelled : left.SpelledAlike right) :
    left = right := by
  cases ordered : left.order? right with
  | error error =>
      rw [Equates, relates, ordered] at equal
      cases equal
  | ok order =>
      cases order with
      | none => exact (equates_iff_of_unordered ordered).mp equal
      | some order =>
          rw [Equates, relates_of_order? ordered] at equal
          have same : order = .eq := by simpa [Comparison.holds] using equal
          subst same
          unfold order? at ordered
          split at ordered
          · have equal := Std.LawfulEqOrd.eq_of_compare (Option.some.inj (Except.ok.inj ordered))
            rw [equal]
          · have same := Option.some.inj spelled
            rw [same]
          · have equal := Std.LawfulEqOrd.eq_of_compare (Option.some.inj (Except.ok.inj ordered))
            rw [equal]
          · cases ordered

/-- A value whose number can be read is equal to itself. -/
theorem equates_self
    (value : AttributeValue)
    (readable : ∀ text, value.number? = some text → Text.denotesNumber text) :
    value.Equates value := by
  cases value with
  | number text =>
      have denotes := readable text rfl
      rw [Equates, relates_of_order? (compare?_numeric denotes denotes)]
      rw [show KeyValue.order _ _ = .eq from Std.ReflCmp.compare_self]
      rfl
  | string text =>
      have same : (string text).order? (string text) = .ok (some .eq) :=
        congrArg (Except.ok ∘ some) Std.ReflOrd.compare_self
      exact relates_of_order? same .equal
  | binary bytes =>
      have same : (binary bytes).order? (binary bytes) = .ok (some .eq) :=
        congrArg (Except.ok ∘ some) Std.ReflOrd.compare_self
      exact relates_of_order? same .equal
  | _ => exact (equates_iff_of_unordered rfl).mpr rfl

/-! ## Collections -/

/-- A list or a set contains its members and nothing else. -/
theorem contains_iff_mem_members
    {container member : AttributeValue}
    (collection : container.isCollection) :
    container.contains member ↔ member ∈ container.members := by
  cases container <;> cases collection <;>
    cases member <;> simp [contains, members]

/-- A list or a set contains a value if one of its members equals the value and is spelled
like it. -/
theorem contains_iff_equates
    {container member : AttributeValue}
    (collection : container.isCollection)
    (readable : ∀ text, member.number? = some text → Text.denotesNumber text) :
    container.contains member ↔
      ∃ element ∈ container.members, element.Equates member ∧ element.SpelledAlike member := by
  rw [contains_iff_mem_members collection]
  constructor
  · intro inside
    exact ⟨member, inside, member.equates_self readable, rfl⟩
  · rintro ⟨element, inside, equal, spelled⟩
    rw [← eq_of_equates equal spelled]
    exact inside

/-- Lists of equal items are equal if the numbers among the items are spelled alike. -/
theorem equates_list_iff
    {lefts rights : List AttributeValue}
    (equal : List.Forall₂ Equates lefts rights) :
    (list lefts).Equates (list rights) ↔
      List.Forall₂ SpelledAlike lefts rights := by
  rw [equates_iff_of_unordered rfl, list.injEq]
  constructor
  · rintro rfl
    exact List.forall₂_same.mpr fun _ _ => rfl
  · intro spelled
    induction equal with
    | nil => rfl
    | cons first _ ih =>
        rcases List.forall₂_cons.mp spelled with ⟨firstSpelled, others⟩
        rw [eq_of_equates first firstSpelled, ih others]

/-- Maps with the same names and equal values are equal if the numbers among the values are
spelled alike. -/
theorem equates_map_iff
    {lefts rights : Item}
    (names : lefts.names = rights.names)
    (equal : ∀ name left right,
      lefts.find? name = some left → rights.find? name = some right → left.Equates right) :
    (map lefts).Equates (map rights) ↔
      ∀ name left right,
        lefts.find? name = some left → rights.find? name = some right →
          left.SpelledAlike right := by
  rw [equates_iff_of_unordered rfl, map.injEq]
  constructor
  · rintro rfl name left right isLeft isRight
    have same := Option.some.inj (isLeft.symm.trans isRight)
    rw [same, SpelledAlike]
  · intro spelled
    apply NameMap.ext_find?
    intro name
    have same : (lefts.find? name).isSome = (rights.find? name).isSome := by
      rw [Bool.eq_iff_iff, NameMap.find?_isSome_iff, NameMap.find?_isSome_iff, names]
    cases isLeft : lefts.find? name with
    | none =>
        rw [isLeft] at same
        exact (Option.isNone_iff_eq_none.mp (by simpa using same.symm)).symm
    | some left =>
        rw [isLeft] at same
        rcases Option.isSome_iff_exists.mp same.symm with ⟨right, isRight⟩
        rw [isRight, eq_of_equates (equal name left right isLeft isRight)
          (spelled name left right isLeft isRight)]

/-- Sets of one kind are equal if they list the same members in the same order. -/
theorem equates_set_iff :
    (∀ lefts rights, (stringSet lefts).Equates (stringSet rights) ↔ lefts = rights) ∧
      (∀ lefts rights, (numberSet lefts).Equates (numberSet rights) ↔ lefts = rights) ∧
      ∀ lefts rights, (binarySet lefts).Equates (binarySet rights) ↔ lefts = rights := by
  refine ⟨fun lefts rights => ?_, fun lefts rights => ?_, fun lefts rights => ?_⟩
  · rw [equates_iff_of_unordered rfl, stringSet.injEq]
  · rw [equates_iff_of_unordered rfl, numberSet.injEq]
  · rw [equates_iff_of_unordered rfl, binarySet.injEq]

end AttributeValue

/-! ## Conditions -/

namespace Condition

variable {item : Item} {left right : Operand} {first second : AttributeValue}

theorem holds_equal_iff
    (resolvedFirst : left.resolve? item = some first)
    (resolvedSecond : right.resolve? item = some second) :
    (compare left .equal right).holds item = .ok true ↔ first.Equates second := by
  rw [holds, resolvedFirst, resolvedSecond, AttributeValue.Equates]

/-- The comparison of IN is that of `=`. -/
theorem holds_among_iff
    (resolvedFirst : left.resolve? item = some first)
    (resolvedSecond : right.resolve? item = some second) :
    (among left [right]).holds item = .ok true ↔ first.Equates second := by
  rw [holds, resolvedFirst, AttributeValue.Equates]
  simp only [equalsOne, resolvedSecond]
  cases first.relates .equal second with
  | error error => simp [bind, Except.bind]
  | ok equal => cases equal <;> simp [bind, Except.bind, pure, Except.pure]

theorem holds_contains_iff
    {place : Path}
    {container member : AttributeValue}
    (resolved : item.resolve? place = some container) :
    (test .contains [.path place, .value member]).holds item = .ok true ↔
      container.contains member := by
  simp only [holds, Predicate.holds, resolved, List.head?_cons, Option.bind_eq_bind,
    Option.bind_some, Operand.resolve?, Except.ok.injEq]

end Condition

section

open AttributeValue

/-- Membership and the equality of collections agree with `=` and IN on their members as
far as numbers are spelled alike and sets are listed alike, and no further. -/
theorem equality_agrees_on_spellings (item : Item) :
    let equal (left right : AttributeValue) :=
      (Condition.compare (.value left) .equal (.value right)).holds item = .ok true
    let amongOne (left right : AttributeValue) :=
      (Condition.among (.value left) [.value right]).holds item = .ok true
    (∀ left right, amongOne left right ↔ equal left right) ∧
      (∀ place container member, item.resolve? place = some container →
        container.isCollection →
          (∀ text, member.number? = some text → Text.denotesNumber text) →
            ((Condition.test .contains [.path place, .value member]).holds item = .ok true ↔
              ∃ element ∈ container.members,
                equal element member ∧ element.SpelledAlike member)) ∧
      (∀ lefts rights, List.Forall₂ equal lefts rights →
        (equal (list lefts) (list rights) ↔ List.Forall₂ SpelledAlike lefts rights)) ∧
      (∀ lefts rights : Item, lefts.names = rights.names →
        (∀ name left right,
          lefts.find? name = some left → rights.find? name = some right → equal left right) →
          (equal (map lefts) (map rights) ↔
            ∀ name left right,
              lefts.find? name = some left → rights.find? name = some right →
                left.SpelledAlike right)) ∧
      (∀ lefts rights, equal (stringSet lefts) (stringSet rights) ↔ lefts = rights) ∧
      (∀ lefts rights, equal (numberSet lefts) (numberSet rights) ↔ lefts = rights) ∧
      ∀ lefts rights, equal (binarySet lefts) (binarySet rights) ↔ lefts = rights := by
  intro equal amongOne
  have same : equal = Equates := by
    funext left right
    exact propext (Condition.holds_equal_iff rfl rfl)
  rw [same]
  refine ⟨fun left right => Condition.holds_among_iff rfl rfl, ?_,
    fun _ _ => equates_list_iff, fun _ _ => equates_map_iff, equates_set_iff⟩
  intro place container member resolved collection readable
  exact (Condition.holds_contains_iff resolved).trans (contains_iff_equates collection readable)

end

/-- An item with the number `1.0` in a set, a list and a map, and with two tags.  The
number equals `1` where it stands alone, but neither the set nor the list contains `1`,
the list and the map do not equal the same ones with `1`, and the tags do not equal the
same tags listed the other way round. -/
theorem equality_differs_in_collections :
    let item : Item := .ofList
      [("grades", .map (.ofList [("a", .number "1.0")])), ("marks", .list [.number "1.0"]),
        ("prices", .numberSet ["1.0", "2"]), ("tags", .stringSet ["s3", "storage"])]
    let place (name : String) : Path := ⟨[.attribute name]⟩
    let mark : Path := ⟨[.attribute "marks", .index 0]⟩
    let grade : Path := ⟨[.attribute "grades", .attribute "a"]⟩
    let equals (path : Path) (value : AttributeValue) :=
      (Condition.compare (.path path) .equal (.value value)).holds item
    let contains (path : Path) (value : AttributeValue) :=
      (Condition.test .contains [.path path, .value value]).holds item
    (equals mark (.number "1") = .ok true ∧ equals grade (.number "1") = .ok true) ∧
      contains (place "prices") (.number "1") = .ok false ∧
      contains (place "marks") (.number "1") = .ok false ∧
      equals (place "marks") (.list [.number "1"]) = .ok false ∧
      equals (place "grades") (.map (.ofList [("a", .number "1")])) = .ok false ∧
      equals (place "tags") (.stringSet ["storage", "s3"]) = .ok false := by
  decide +kernel

end ItemTable
