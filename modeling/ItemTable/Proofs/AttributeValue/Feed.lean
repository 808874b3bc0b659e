import ItemTable.AttributeValue.Feed
import ItemTable.Proofs.NameMap
import ItemTable.Proofs.Sequencing

/-!
# Equal values are fed alike

A hash table of attribute values meets them as they are stored, with the entries of maps in
any order.  It compares two stored values entry by entry, looking up each entry of one map in
the other.  The feed of a stored value is that of the value itself, so values that are
compared equal are fed alike, in whatever order their entries come.
-/

namespace ItemTable.AttributeValue

namespace Layout

/-! ## Stored values -/

/-- A value as a hash map stores it: lists and maps are laid out, and the entries of a map
have distinct names. -/
inductive IsStored : Layout → Prop
  | leaf
      {value : AttributeValue}
      (noList : value.list? = none)
      (noMap : value.map? = none) :
      IsStored (.leaf value)
  | list
      {items : List Layout}
      (each : ∀ item ∈ items, IsStored item) :
      IsStored (.list items)
  | map
      {entries : List (String × Layout)}
      (distinct : (entries.map Prod.fst).Nodup)
      (each : ∀ entry ∈ entries, IsStored entry.2) :
      IsStored (.map entries)

mutual

/-- Whether two stored values are compared equal. -/
def equals : Layout → Layout → Bool
  | .leaf left, .leaf right => left == right
  | .list lefts, .list rights => equalsItems lefts rights
  | .map lefts, .map rights => lefts.length == rights.length && equalsEntries lefts rights
  | _, _ => false

/-- Whether two stored lists are compared equal. -/
def equalsItems : List Layout → List Layout → Bool
  | [], [] => true
  | left :: lefts, right :: rights => left.equals right && equalsItems lefts rights
  | _, _ => false

/-- Whether each entry is found under its name, with an equal value. -/
def equalsEntries : List (String × Layout) → List (String × Layout) → Bool
  | [], _ => true
  | (name, left) :: lefts, rights =>
      (match rights.lookup name with
        | some right => left.equals right
        | none => false) &&
      equalsEntries lefts rights

end

variable {items lefts rights : List Layout} {entries : List (String × Layout)}

theorem values_eq_map (items : List Layout) : values items = items.map value :=
  eq_map_of_cons rfl (fun _ _ => rfl) items

theorem fields_eq_map (entries : List (String × Layout)) :
    fields entries = entries.map fun entry => (entry.1, entry.2.value) :=
  eq_map_of_cons rfl (fun _ _ => rfl) entries

theorem feedItems_eq_flatMap (items : List Layout) : feedItems items = items.flatMap feed := by
  induction items with
  | nil => rfl
  | cons item items ih => rw [feedItems, ih, List.flatMap_cons]

theorem feedEntries_eq_map (entries : List (String × Layout)) :
    feedEntries entries = entries.map fun entry => (entry.1, entry.2.feed) :=
  eq_map_of_cons rfl (fun _ _ => rfl) entries

theorem equalsItems_iff (lefts rights : List Layout) :
    equalsItems lefts rights ↔ List.Forall₂ (fun left right => left.equals right) lefts rights := by
  induction lefts generalizing rights with
  | nil => cases rights <;> simp [equalsItems]
  | cons left lefts ih => cases rights <;> simp [equalsItems, ih]

theorem equalsEntries_iff (lefts rights : List (String × Layout)) :
    equalsEntries lefts rights ↔
      ∀ entry ∈ lefts, ∃ right, rights.lookup entry.1 = some right ∧ entry.2.equals right := by
  induction lefts with
  | nil => simp [equalsEntries]
  | cons entry lefts ih =>
      rw [equalsEntries, Bool.and_eq_true, ih, List.forall_mem_cons]
      cases rights.lookup entry.1 <;> simp

/-! ## Comparing stored values -/

theorem forall₂_equals_iff
    (each : ∀ left ∈ lefts, ∀ right ∈ rights,
      left.equals right ↔ left.value = right.value) :
    List.Forall₂ (fun left right => left.equals right) lefts rights ↔
      lefts.map value = rights.map value := by
  induction lefts generalizing rights with
  | nil => cases rights <;> simp
  | cons left lefts ih =>
      cases rights with
      | nil => simp
      | cons right rights =>
          have first := each left List.mem_cons_self right List.mem_cons_self
          have others := ih fun left here right there =>
            each left (List.mem_cons_of_mem _ here) right (List.mem_cons_of_mem _ there)
          rw [List.forall₂_cons, List.map_cons, List.map_cons, List.cons.injEq, first, others]

theorem equals_map_iff
    {lefts rights : List (String × Layout)}
    (distinct : (lefts.map Prod.fst).Nodup)
    (otherDistinct : (rights.map Prod.fst).Nodup)
    (each : ∀ left ∈ lefts, ∀ right ∈ rights,
      left.2.equals right.2 ↔ left.2.value = right.2.value) :
    (map lefts).equals (.map rights) ↔ (map lefts).value = (map rights).value := by
  have named : ((fields lefts).map Prod.fst).Nodup := by
    rwa [fields_eq_map, List.map_map]
  have otherNamed : ((fields rights).map Prod.fst).Nodup := by
    rwa [fields_eq_map, List.map_map]
  rw [equals, value, value, AttributeValue.map.injEq,
    NameMap.ofList_eq_ofList_iff named otherNamed, fields_eq_map, fields_eq_map,
    List.length_map, List.length_map, List.forall_mem_map, Bool.and_eq_true, beq_iff_eq,
    equalsEntries_iff]
  refine and_congr_right fun _ => forall₂_congr fun left here => ?_
  rw [AssociationList.lookup_map_snd, Option.map_eq_some_iff]
  refine exists_congr fun right => and_congr_right fun found => ?_
  rw [each left here (left.1, right) (AssociationList.mem_of_lookup found), eq_comm]

theorem ne_list_of_list?_eq_none
    {value : AttributeValue}
    {items : List AttributeValue}
    (noList : value.list? = none) :
    value ≠ .list items :=
  fun same => nomatch noList.symm.trans (congrArg list? same)

theorem ne_map_of_map?_eq_none
    {value : AttributeValue}
    {fields : Item}
    (noMap : value.map? = none) :
    value ≠ .map fields :=
  fun same => nomatch noMap.symm.trans (congrArg map? same)

/-- Stored values are compared equal exactly if they are one value. -/
theorem IsStored.equals_iff
    {left right : Layout}
    (leftStored : left.IsStored)
    (rightStored : right.IsStored) :
    left.equals right ↔ left.value = right.value := by
  -- Values of different shapes are neither compared equal nor one value.
  induction leftStored generalizing right with
  | @leaf left noList noMap =>
      cases rightStored with
      | leaf => rw [equals, value, value, beq_iff_eq]
      | list => exact iff_of_false Bool.false_ne_true (ne_list_of_list?_eq_none noList)
      | map => exact iff_of_false Bool.false_ne_true (ne_map_of_map?_eq_none noMap)
  | @list lefts each ih =>
      cases rightStored with
      | leaf noList => exact iff_of_false Bool.false_ne_true (ne_list_of_list?_eq_none noList).symm
      | @list rights others =>
          rw [equals, value, value, AttributeValue.list.injEq, values_eq_map, values_eq_map,
            equalsItems_iff]
          exact forall₂_equals_iff fun left here right there => ih left here (others right there)
      | map => exact iff_of_false Bool.false_ne_true nofun
  | @map lefts distinct each ih =>
      cases rightStored with
      | leaf _ noMap => exact iff_of_false Bool.false_ne_true (ne_map_of_map?_eq_none noMap).symm
      | list => exact iff_of_false Bool.false_ne_true nofun
      | @map rights otherDistinct others =>
          exact equals_map_iff distinct otherDistinct fun left here right there =>
            ih left here (others right there)

end Layout

/-! ## Feeds of stored values -/

theorem layoutItems_eq_map (items : List AttributeValue) :
    layoutItems items = items.map layout :=
  eq_map_of_cons rfl (fun _ _ => rfl) items

theorem layout_map (fields : NameMap AttributeValue) :
    layout (.map fields) = .map (fields.map layout).toList := by
  rw [layout]
  rfl

theorem feed_list (items : List AttributeValue) :
    feed (.list items) = .kind "L" :: .length items.length :: items.flatMap feed := by
  rw [feed, layout, Layout.feed, layoutItems_eq_map, Layout.feedItems_eq_flatMap, List.length_map,
    List.flatMap_map]
  rfl

/-- The feed of a map lists the names with the feeds of their values. -/
theorem feed_map (fields : NameMap AttributeValue) :
    feed (.map fields) =
      .kind "M" :: (fields.map feed).toList.flatMap fun (name, feed) => .text name :: feed := by
  have entries : Layout.feedEntries (fields.map layout).toList = (fields.map feed).toList := by
    rw [Layout.feedEntries_eq_map, NameMap.toList_map, NameMap.toList_map, List.map_map]
    rfl
  rw [feed, layout_map, Layout.feed, entries,
    NameMap.mergeSort_eq_toList (fields.map feed).nodup_map_fst_toList, NameMap.ofList_toList]

/-- A stored value has the feed of the value, however the entries of its maps are ordered. -/
theorem Layout.IsStored.feed_eq
    {stored : Layout}
    (isStored : stored.IsStored) :
    stored.feed = stored.value.feed := by
  induction isStored with
  | @leaf value noList noMap =>
      cases value with
      | list => cases noList
      | map => cases noMap
      | _ => rfl
  | @list items each ih =>
      have feeds :
          items.flatMap Layout.feed = (items.map Layout.value).flatMap AttributeValue.feed := by
        rw [List.flatMap_map]
        exact List.flatMap_congr ih
      rw [Layout.value, values_eq_map, feed_list, Layout.feed, feedItems_eq_flatMap, feeds,
        List.length_map]
  | @map entries distinct each ih =>
      have feeds : feedEntries entries =
          (fields entries).map fun entry => (entry.1, entry.2.feed) := by
        rw [feedEntries_eq_map, fields_eq_map, List.map_map]
        exact List.map_congr_left fun entry member => congrArg (entry.1, ·) (ih entry member)
      have named : ((feedEntries entries).map Prod.fst).Nodup := by
        rwa [feedEntries_eq_map, List.map_map]
      rw [Layout.value, feed_map, Layout.feed, NameMap.mergeSort_eq_toList named, feeds,
        NameMap.ofList_map]

/-! ## Every value is stored -/

mutual

theorem isStored_layout (value : AttributeValue) : value.layout.IsStored := by
  cases value with
  | list items =>
      rw [layout]
      exact .list (isStored_layoutItems items)
  | map fields =>
      rw [layout_map]
      refine .map (fields.map layout).nodup_map_fst_toList fun entry member => ?_
      rcases List.mem_ofFn.mp member with ⟨index, rfl⟩
      exact isStored_layout (fields.value index)
  | _ => exact .leaf rfl rfl

theorem isStored_layoutItems (items : List AttributeValue) :
    ∀ item ∈ layoutItems items, item.IsStored := by
  cases items with
  | nil => exact nofun
  | cons item items =>
      rw [layoutItems]
      exact List.forall_mem_cons.mpr ⟨isStored_layout item, isStored_layoutItems items⟩

end

mutual

/-- The layout of a value stores the value. -/
theorem value_layout (value : AttributeValue) : value.layout.value = value := by
  cases value with
  | list items => rw [layout, Layout.value, values_layoutItems items]
  | map fields =>
      have entries : Layout.fields (fields.map layout).toList = fields.toList := by
        rw [Layout.fields_eq_map, NameMap.toList, List.map_ofFn]
        refine congrArg List.ofFn (funext fun index => ?_)
        exact congrArg (fields.names.get index, ·) (value_layout (fields.value index))
      rw [layout_map, Layout.value, entries, NameMap.ofList_toList]
  | _ => rfl

theorem values_layoutItems (items : List AttributeValue) :
    Layout.values (layoutItems items) = items := by
  cases items with
  | nil => rfl
  | cons item items =>
      rw [layoutItems, Layout.values, value_layout item, values_layoutItems items]

end

/-- Every value is stored in some way, two stored values are compared equal exactly if they
are one value, and then they are fed alike. -/
theorem equal_values_feed_alike :
    (∀ value : AttributeValue, value.layout.IsStored ∧ value.layout.value = value) ∧
      (∀ left right : Layout, left.IsStored → right.IsStored →
        (left.equals right ↔ left.value = right.value)) ∧
      (∀ left right : Layout, left.IsStored → right.IsStored → left.equals right →
        left.feed = right.feed) := by
  refine ⟨fun value => ⟨isStored_layout value, value_layout value⟩,
    fun left right leftStored rightStored => leftStored.equals_iff rightStored, ?_⟩
  intro left right leftStored rightStored equal
  have same := (leftStored.equals_iff rightStored).mp equal
  calc left.feed
      = left.value.feed := leftStored.feed_eq
    _ = right.value.feed := by rw [same]
    _ = right.feed := rightStored.feed_eq.symm

/-- A map in a list, with its entries in one order. -/
def shelf : Layout :=
  .list [.map [("x", .leaf (.number "1")), ("y", .map [])]]

/-- The same map with its entries in the other order. -/
def otherShelf : Layout :=
  .list [.map [("y", .map []), ("x", .leaf (.number "1"))]]

theorem equal_values_feed_alike_shelf : shelf.feed = otherShelf.feed := by
  have number : (Layout.leaf (.number "1")).IsStored := .leaf rfl rfl
  have empty : (Layout.map []).IsStored := .map .nil nofun
  have stored : shelf.IsStored := by
    refine .list (List.forall_mem_singleton.mpr (.map (by decide) ?_))
    exact List.forall_mem_cons.mpr ⟨number, List.forall_mem_singleton.mpr empty⟩
  have otherStored : otherShelf.IsStored := by
    refine .list (List.forall_mem_singleton.mpr (.map (by decide) ?_))
    exact List.forall_mem_cons.mpr ⟨empty, List.forall_mem_singleton.mpr number⟩
  exact equal_values_feed_alike.2.2 shelf otherShelf stored otherStored (by decide)

end ItemTable.AttributeValue
