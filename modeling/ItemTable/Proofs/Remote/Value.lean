import ItemTable.Proofs.AttributeValue.Wire
import ItemTable.Remote.Value

/-!
# Values survive messages

A value is put into a message and read back from it.  The entries of its maps may come in any
order in the message: they are read back as the same map, and the message is written as a wire
form of the value all the same.
-/

namespace ItemTable.RemoteValue

open AttributeValue (Writes)

/-- The value in a message carries the value of an item.  The entries of a map may come in
any order. -/
inductive Carries : RemoteValue → AttributeValue → Prop where
  | plain
      {value : AttributeValue}
      (noList : value.list? = none)
      (noMap : value.map? = none) :
      Carries (ofValue value) value
  | list
      {forms : List RemoteValue}
      {items : List AttributeValue}
      (length : items.length = forms.length)
      (each : ∀ pair ∈ items.zip forms, Carries pair.2 pair.1) :
      Carries (.list forms) (.list items)
  | map
      {entries : List (String × RemoteValue)}
      {fields : Item}
      (names : (entries.map Prod.fst).Perm fields.names)
      (each : ∀ name form value,
        (name, form) ∈ entries → fields.find? name = some value → Carries form value) :
      Carries (.map entries) (.map fields)

variable {form : RemoteValue} {value : AttributeValue}

/-! ## Putting values into messages -/

theorem ofItems_eq_map (items : List AttributeValue) : ofItems items = items.map ofValue :=
  eq_map_of_cons rfl (fun _ _ => rfl) items

theorem ofValue_map (fields : Item) : ofValue (.map fields) = .map (ofItem fields) := by
  rw [ofValue, ofItem, NameMap.toList, List.map_ofFn]
  rfl

theorem itemsToJson_eq_map (forms : List RemoteValue) : itemsToJson forms = forms.map toJson :=
  eq_map_of_cons rfl (fun _ _ => rfl) forms

theorem fieldsToJson_eq_map (entries : List (String × RemoteValue)) :
    fieldsToJson entries = entries.map fun entry => (entry.1, entry.2.toJson) :=
  eq_map_of_cons rfl (fun _ _ => rfl) entries

theorem map_fst_ofItem (item : Item) : (ofItem item).map Prod.fst = item.names := by
  rw [ofItem, List.map_map, ← item.map_fst_toList]
  rfl

mutual

/-- What a value is put into a message as carries the value. -/
theorem carries_ofValue (value : AttributeValue) : (ofValue value).Carries value := by
  cases value with
  | list items =>
      rw [ofValue]
      refine .list ?_ (carries_ofItems items)
      rw [ofItems_eq_map, List.length_map]
  | map fields =>
      rw [ofValue_map]
      refine .map (.of_eq (map_fst_ofItem fields)) fun name form value member found => ?_
      rcases List.mem_map.mp member with ⟨entry, listed, same⟩
      rcases List.mem_ofFn.mp listed with ⟨index, rfl⟩
      cases same
      rw [fields.find?_get index] at found
      cases found
      exact carries_ofValue (fields.value index)
  | _ => exact .plain rfl rfl

theorem carries_ofItems (items : List AttributeValue) :
    ∀ pair ∈ items.zip (ofItems items), pair.2.Carries pair.1 := by
  cases items with
  | nil => exact nofun
  | cons item items =>
      rw [ofItems, List.zip_cons_cons]
      exact List.forall_mem_cons.mpr ⟨carries_ofValue item, carries_ofItems items⟩

end

/-! ## Writing messages -/

theorem toJson_ofValue_of_plain
    (noList : value.list? = none)
    (noMap : value.map? = none) :
    (ofValue value).toJson = value.toJson := by
  cases value with
  | list => cases noList
  | map => cases noMap
  | _ => rfl

theorem fieldsToJson_ofItem_of_each
    {fields : Item}
    (each : ∀ index, (ofValue (fields.value index)).toJson = (fields.value index).toJson) :
    fieldsToJson (ofItem fields) = fields.toList.map fun entry => (entry.1, entry.2.toJson) := by
  rw [fieldsToJson_eq_map, ofItem, List.map_map, NameMap.toList, List.map_ofFn, List.map_ofFn]
  exact congrArg List.ofFn (funext fun index => congrArg (fields.names.get index, ·) (each index))

mutual

/-- A value is written alike in a message and by itself. -/
theorem toJson_ofValue (value : AttributeValue) : (ofValue value).toJson = value.toJson := by
  cases value with
  | list items =>
      rw [ofValue, toJson, itemsToJson_ofItems items, AttributeValue.toJson]
      rfl
  | map fields =>
      have entries := fieldsToJson_ofItem_of_each fun index => toJson_ofValue (fields.value index)
      rw [ofValue_map, toJson, entries, AttributeValue.toJson_map]
      rfl
  | _ => rfl

theorem itemsToJson_ofItems (items : List AttributeValue) :
    itemsToJson (ofItems items) = AttributeValue.itemsToJson items := by
  cases items with
  | nil => rfl
  | cons item items =>
      rw [ofItems, itemsToJson, toJson_ofValue item, itemsToJson_ofItems items]
      rfl

end

/-- An item is written alike in a message and by itself. -/
theorem fieldsToJson_ofItem (item : Item) : .object (fieldsToJson (ofItem item)) = item.toJson :=
  congrArg Json.object (fieldsToJson_ofItem_of_each fun index => toJson_ofValue (item.value index))

/-- A value in a message is written as a wire form of the value that it carries. -/
theorem Carries.writes (carries : form.Carries value) : Writes value form.toJson := by
  induction carries with
  | plain noList noMap =>
      rw [toJson_ofValue_of_plain noList noMap]
      exact .plain noList noMap
  | @list forms items length each ih =>
      rw [toJson, itemsToJson_eq_map]
      refine .list (by rw [List.length_map, length]) fun pair member => ?_
      rw [List.zip_map_right] at member
      rcases List.mem_map.mp member with ⟨pair, there, rfl⟩
      exact ih pair there
  | @map entries fields names each ih =>
      rw [toJson, fieldsToJson_eq_map]
      refine .map (by rwa [List.map_map]) fun name value document found member => ?_
      rcases List.mem_map.mp member with ⟨entry, there, same⟩
      cases same
      exact ih _ _ _ there found

/-! ## Reading messages back -/

theorem values?_of_each
    {forms : List RemoteValue}
    {items : List AttributeValue}
    (length : items.length = forms.length)
    (each : ∀ pair ∈ items.zip forms, pair.2.value? = some pair.1) :
    values? forms = some items := by
  induction forms generalizing items with
  | nil =>
      cases List.length_eq_zero_iff.mp length
      rfl
  | cons form forms ih =>
      cases items with
      | nil => cases length
      | cons item items =>
          rw [List.zip_cons_cons] at each
          rcases List.forall_mem_cons.mp each with ⟨first, others⟩
          rw [values?, first, ih (Nat.succ.inj length) others]
          rfl

/-- Entries with values of a map are read as entries of the map. -/
theorem entries?_of_each
    {entries : List (String × RemoteValue)}
    {fields : Item}
    (each : ∀ entry ∈ entries, ∃ value,
      fields.find? entry.1 = some value ∧ entry.2.value? = some value) :
    ∃ read,
      entries? entries = some read ∧
        read.map Prod.fst = entries.map Prod.fst ∧
        ∀ entry ∈ read, fields.find? entry.1 = some entry.2 := by
  induction entries with
  | nil => exact ⟨[], rfl, rfl, nofun⟩
  | cons entry entries ih =>
      rcases List.forall_mem_cons.mp each with ⟨⟨value, found, first⟩, others⟩
      rcases ih others with ⟨read, whole, names, entered⟩
      refine ⟨(entry.1, value) :: read, ?_, ?_, List.forall_mem_cons.mpr ⟨found, entered⟩⟩
      · rw [entries?, first, whole]
        rfl
      · rw [List.map_cons, List.map_cons, names]

/-- The value that is carried is read back. -/
theorem Carries.value?_eq (carries : form.Carries value) : form.value? = some value := by
  induction carries with
  | @plain value noList noMap =>
      cases value with
      | list => cases noList
      | map => cases noMap
      | _ => rfl
  | list length each ih =>
      rw [value?, values?_of_each length ih]
      rfl
  | @map entries fields names each ih =>
      have carried : ∀ entry ∈ entries, ∃ value,
          fields.find? entry.1 = some value ∧ entry.2.value? = some value := by
        intro entry member
        rcases NameMap.exists_of_names names member with ⟨value, found⟩
        exact ⟨value, found, ih _ _ _ member found⟩
      rcases entries?_of_each carried with ⟨read, whole, sameNames, entered⟩
      rw [value?, whole, Option.map_some, NameMap.ofList_eq (sameNames ▸ names) entered]

/-- The item that is carried is read back. -/
theorem item?_eq_of_carries
    {fields : List (String × RemoteValue)}
    {item : Item}
    (carries : (map fields).Carries (.map item)) :
    item? fields = some item := by
  have read := carries.value?_eq
  rw [value?] at read
  rcases Option.map_eq_some_iff.mp read with ⟨entries, whole, same⟩
  rw [item?, whole, Option.map_some, AttributeValue.map.inj same]

end ItemTable.RemoteValue
