import ItemTable.AttributeValue.Wire
import ItemTable.Proofs.Base64
import ItemTable.Proofs.Json.Nesting
import ItemTable.Proofs.NameMap
import ItemTable.Proofs.Sequencing

/-!
# The wire format is lossless

A value is read back from its wire form exactly if the form is not nested too deeply
for the reader.
-/

namespace ItemTable.AttributeValue

open Json

/-! ## Wire forms -/

/-- The document is a wire form of the value.  The members for the entries of a map may
come in any order. -/
inductive Writes : AttributeValue → Json → Prop where
  | plain
      {value : AttributeValue}
      (noList : value.list? = none)
      (noMap : value.map? = none) :
      Writes value value.toJson
  | list
      {items : List AttributeValue}
      {documents : List Json}
      (length : items.length = documents.length)
      (each : ∀ pair ∈ items.zip documents, Writes pair.1 pair.2) :
      Writes (.list items) (.object [("L", .array documents)])
  | map
      {fields : Item}
      {members : List (String × Json)}
      (names : (members.map Prod.fst).Perm fields.names)
      (each : ∀ name value document,
        fields.find? name = some value → (name, document) ∈ members →
          Writes value document) :
      Writes (.map fields) (.object [("M", .object members)])

theorem itemsToJson_eq (items : List AttributeValue) :
    itemsToJson items = items.map toJson :=
  eq_map_of_cons rfl (fun _ _ => rfl) items

/-- The members for the entries of a map, in the order of their names. -/
theorem toJson_map (fields : Item) :
    toJson (.map fields) =
      .object [("M", .object (fields.toList.map fun (name, value) =>
        (name, value.toJson)))] := by
  rw [toJson, NameMap.toList, List.map_ofFn]
  rfl

mutual

/-- The wire form of a value is one of its wire forms. -/
theorem writes_toJson (value : AttributeValue) : Writes value value.toJson := by
  cases value with
  | list items =>
      refine .list ?_ (writes_itemsToJson items)
      rw [itemsToJson_eq, List.length_map]
  | map fields =>
      refine .map ?_ ?_
      · apply List.Perm.of_eq
        apply List.ext_get <;> simp
      intro name value document found member
      rcases List.mem_ofFn.mp member with ⟨index, entry⟩
      cases entry
      rw [fields.find?_get index] at found
      cases found
      exact writes_toJson (fields.value index)
  | _ => exact .plain rfl rfl

/-- The wire forms of the items of a list are wire forms of the items. -/
theorem writes_itemsToJson
    (items : List AttributeValue) :
    ∀ pair ∈ items.zip (itemsToJson items), Writes pair.1 pair.2 := by
  cases items with
  | nil => exact nofun
  | cons item items =>
      intro pair member
      rcases List.mem_cons.mp member with rfl | behind
      · exact writes_toJson item
      · exact writes_itemsToJson items pair behind

end

/-- There is no number in a wire form: a number is written as a text. -/
theorem Writes.numberless
    {value : AttributeValue}
    {document : Json}
    (written : Writes value document) :
    Numberless document := by
  have alone :
      ∀ {kind : String} {payload : Json},
        Numberless payload → Numberless (.object [(kind, payload)]) := by
    intro kind payload numberless
    refine .object fun member there => ?_
    cases List.mem_singleton.mp there
    exact numberless
  have texts :
      ∀ {α : Type} {write : α → Json} (values : List α),
        (∀ value, Numberless (write value)) → Numberless (.array (values.map write)) := by
    intro α write values flat
    refine .array fun document member => ?_
    rcases List.mem_map.mp member with ⟨value, -, rfl⟩
    exact flat value
  induction written with
  | @plain value noList noMap =>
      cases value with
      | list items => cases noList
      | map fields => cases noMap
      | string text | number text => exact alone (.string text)
      | binary bytes => exact alone (.string _)
      | bool value | null value => exact alone (.bool value)
      | stringSet values | numberSet values => exact alone (texts values .string)
      | binarySet members => exact alone (texts members fun _ => .string _)
  | @list items documents length each ih =>
      refine alone (.array fun document member => ?_)
      rw [← List.map_snd_zip (Nat.le_of_eq length.symm)] at member
      rcases List.mem_map.mp member with ⟨pair, there, rfl⟩
      exact ih pair there
  | @map fields members names each ih =>
      refine alone (.object fun member there => ?_)
      rcases NameMap.exists_of_names names there with ⟨value, found⟩
      exact ih member.1 value member.2 found there

/-! ## Reading wire forms -/

/-- An object with one member is read by what stands under the name of the kind. -/
theorem reads_of_payload
    {kind : String}
    {payload : Json}
    {value : AttributeValue}
    (read :
      ∀ levels, 0 < levels →
        decodePayload levels kind (.ofJson payload) =
          if payload.depth < levels then .ok value else .error .malformed) :
    Decoder.Reads decode (.object [(kind, payload)]) value := by
  intro levels
  simp only [Draft.ofJson, Draft.ofMembers, decode, depth, membersDepth, Nat.max_zero]
  by_cases shallow : levels ≤ 1
  · rw [if_pos shallow, if_neg (by omega)]
  · rw [if_neg shallow, read _ (by omega)]
    by_cases within : payload.depth < levels - 1
    · rw [if_pos within, if_pos (by omega)]
      rfl
    · rw [if_neg within, if_neg (by omega)]
      rfl

/-- The texts of a set are read back. -/
theorem texts_read
    (levels : Nat)
    (texts : List String) :
    Decoder.list Decoder.string levels (.ofJson (.array (texts.map .string))) =
      if (Json.array (texts.map .string)).depth < levels then
        .ok texts
      else
        .error .malformed := by
  have whole :
      (Draft.ofItems (texts.map .string)).mapM (Decoder.string (levels - 1)) =
        Except.ok texts := by
    induction texts with
    | nil => rfl
    | cons text texts ih =>
        rw [List.map_cons, Draft.ofItems, List.mapM_cons, Draft.ofJson, Decoder.string, ok_bind, ih]
        rfl
  have shallow : itemsDepth (texts.map .string) = 0 := by
    clear whole
    induction texts with
    | nil => rfl
    | cons text texts ih =>
        rw [List.map_cons, itemsDepth, ih]
        rfl
  rw [Draft.ofJson, Decoder.list, depth, shallow, whole]
  by_cases closed : levels ≤ 1
  · rw [if_pos closed, if_neg (by omega)]
  · rw [if_neg closed, if_pos (by omega)]
    rfl

theorem decodeBytes_encode (bytes : List UInt8) :
    decodeBytes (String.ofList (Base64.encode bytes)) = .ok bytes := by
  rw [decodeBytes, String.toList_ofList, Base64.decode?_encode]

theorem decodeBinary_binaryToJson
    (levels : Nat)
    (bytes : List UInt8) :
    decodeBinary levels (.ofJson (binaryToJson bytes)) = .ok bytes :=
  decodeBytes_encode bytes

/-- The binaries of a set are read back. -/
theorem binaries_read
    (levels : Nat)
    (members : List (List UInt8)) :
    decodeBinaries levels (.ofJson (.array (members.map binaryToJson))) =
      if (Json.array (members.map binaryToJson)).depth < levels then
        .ok members
      else
        .error .malformed := by
  have texts :
      members.map binaryToJson =
        (members.map fun bytes => String.ofList (Base64.encode bytes)).map .string := by
    rw [List.map_map]
    rfl
  have decoded :
      (members.map fun bytes => String.ofList (Base64.encode bytes)).mapM decodeBytes =
        .ok members := by
    clear texts
    induction members with
    | nil => rfl
    | cons bytes members ih =>
        rw [List.map_cons, List.mapM_cons, decodeBytes_encode, ok_bind, ih]
        rfl
  rw [decodeBinaries, texts, texts_read]
  split
  · exact decoded
  · rfl

/-- What is no list and no map is read back from its wire form. -/
theorem reads_toJson
    {value : AttributeValue}
    (noList : value.list? = none)
    (noMap : value.map? = none) :
    Decoder.Reads decode value.toJson value := by
  cases value with
  | list items => cases noList
  | map fields => cases noMap
  | string text | number text | bool value | null value =>
      exact reads_of_payload fun levels positive => (if_pos positive).symm
  | binary bytes =>
      refine reads_of_payload fun levels positive => ?_
      rw [decodePayload, decodeBinary_binaryToJson]
      exact (if_pos positive).symm
  | stringSet texts | numberSet texts =>
      refine reads_of_payload fun levels _ => ?_
      rw [decodePayload, texts_read]
      split <;> rfl
  | binarySet members =>
      refine reads_of_payload fun levels _ => ?_
      rw [decodePayload, binaries_read]
      split <;> rfl

/-- Items that are read from their documents are read from the array of these. -/
theorem decodeItems_eq
    {items : List AttributeValue}
    {documents : List Json}
    (length : items.length = documents.length)
    (each : ∀ pair ∈ items.zip documents, Decoder.Reads decode pair.2 pair.1)
    (levels : Nat) :
    decodeItems levels (Draft.ofItems documents) =
      if ∀ document ∈ documents, document.depth < levels then
        .ok items
      else
        .error .malformed := by
  induction items generalizing documents with
  | nil =>
      cases documents with
      | nil => rfl
      | cons => cases length
  | cons item items ih =>
      cases documents with
      | nil => cases length
      | cons document documents =>
          have here := each (item, document) List.mem_cons_self levels
          have others := ih (Nat.succ.inj length) fun pair member =>
            each pair (List.mem_cons_of_mem _ member)
          rw [Draft.ofItems, decodeItems, here, others]
          by_cases within : document.depth < levels
          · simp only [List.forall_mem_cons, within, if_true, true_and]
            split <;> rfl
          · simp only [List.forall_mem_cons, within, if_false, false_and]
            rfl

/-- Members are read as entries under their names. -/
theorem decodeMembers_eq
    {fields : Item}
    {members : List (String × Json)}
    (each : ∀ member ∈ members, ∃ value,
      fields.find? member.1 = some value ∧ Decoder.Reads decode member.2 value)
    (levels : Nat) :
    ∃ entries,
      entries.map Prod.fst = members.map Prod.fst ∧
        (∀ entry ∈ entries, fields.find? entry.1 = some entry.2) ∧
        decodeMembers levels (Draft.ofMembers members) =
          if ∀ member ∈ members, member.2.depth < levels then
            .ok entries
          else
            .error .malformed := by
  induction members with
  | nil => exact ⟨[], rfl, nofun, rfl⟩
  | cons member members ih =>
      rcases member with ⟨name, document⟩
      rcases List.forall_mem_cons.mp each with ⟨⟨value, found, here⟩, behind⟩
      rcases ih behind with ⟨entries, names, entered, others⟩
      refine ⟨(name, value) :: entries, ?_, List.forall_mem_cons.mpr ⟨found, entered⟩, ?_⟩
      · rw [List.map_cons, List.map_cons, names]
      · rw [Draft.ofMembers, decodeMembers, here levels, others]
        by_cases within : document.depth < levels
        · simp only [List.forall_mem_cons, within, if_true, true_and]
          split <;> rfl
        · simp only [List.forall_mem_cons, within, if_false, false_and]
          rfl

/-- The members for the entries of a map are read as the map. -/
theorem decodeMembers_ofList
    {fields : Item}
    {members : List (String × Json)}
    (names : (members.map Prod.fst).Perm fields.names)
    (each : ∀ name value document,
      fields.find? name = some value → (name, document) ∈ members →
        Decoder.Reads decode document value)
    (levels : Nat) :
    ∃ entries,
      NameMap.ofList entries = fields ∧
        decodeMembers levels (Draft.ofMembers members) =
          if ∀ member ∈ members, member.2.depth < levels then
            .ok entries
          else
            .error .malformed := by
  have entered :
      ∀ member ∈ members, ∃ value,
        fields.find? member.1 = some value ∧ Decoder.Reads decode member.2 value := by
    intro member there
    rcases NameMap.exists_of_names names there with ⟨value, found⟩
    exact ⟨value, found, each member.1 value member.2 found there⟩
  rcases decodeMembers_eq entered levels with ⟨entries, sameNames, found, read⟩
  exact ⟨entries, NameMap.ofList_eq (sameNames ▸ names) found, read⟩

/-- Every wire form of a value is read as the value. -/
theorem Writes.reads
    {value : AttributeValue}
    {document : Json}
    (written : Writes value document) :
    Decoder.Reads decode document value := by
  induction written with
  | plain noList noMap => exact reads_toJson noList noMap
  | @list items documents length each ih =>
      refine reads_of_payload fun levels _ => ?_
      rw [Draft.ofJson, decodePayload, decodeItems_eq length ih]
      simp only [depth_array_lt]
      by_cases closed : levels ≤ 1
      · simp only [closed, if_true, not_true, false_and, if_false]
      · simp only [closed, if_false, not_false_eq_true, true_and]
        split <;> rfl
  | @map fields members names each ih =>
      refine reads_of_payload fun levels _ => ?_
      rcases decodeMembers_ofList names ih (levels - 1) with ⟨entries, whole, read⟩
      rw [Draft.ofJson, decodePayload, read, ← whole]
      simp only [depth_object_lt]
      by_cases closed : levels ≤ 1
      · simp only [closed, if_true, not_true, false_and, if_false]
      · simp only [closed, if_false, not_false_eq_true, true_and]
        split <;> rfl

/-! ## Items -/

end ItemTable.AttributeValue

namespace ItemTable.Item

open Json

/-- The document is a wire form of the item: it holds the entries as it does where the
item is written as a map. -/
def Writes (item : Item) (document : Json) : Prop :=
  ∃ members,
    document = .object members ∧
      AttributeValue.Writes (.map item) (.object [("M", .object members)])

/-- Reading a member after the other is how the members of a map are read. -/
theorem mapM_eq_decodeMembers
    {levels : Nat}
    {read : Option String × Draft → Except DecodeError (String × AttributeValue)}
    (unnamed : ∀ value, read (none, value) = .error .malformed)
    (named : ∀ name value,
      read (some name, value) = do return (name, ← AttributeValue.decode levels value))
    (members : List (Option String × Draft)) :
    members.mapM read = AttributeValue.decodeMembers levels members := by
  induction members with
  | nil => rfl
  | cons member members ih =>
      rw [List.mapM_cons, ih]
      rcases member with ⟨_ | name, value⟩
      · rw [unnamed]
        rfl
      · rw [named, AttributeValue.decodeMembers]
        cases AttributeValue.decode levels value <;> rfl

/-- Every wire form of an item is read as the item, unless it is nested too deeply. -/
theorem Writes.reads
    {item : Item}
    {document : Json}
    (written : item.Writes document) :
    Decoder.Reads decode document item := by
  intro levels
  rcases written with ⟨members, rfl, written⟩
  cases written with
  | plain _ noMap => cases noMap
  | map names each =>
      rcases AttributeValue.decodeMembers_ofList names
        (fun name value document found member => (each name value document found member).reads)
        (levels - 1) with ⟨entries, whole, read⟩
      rw [Draft.ofJson, decode, Decoder.names,
        mapM_eq_decodeMembers (fun _ => rfl) fun _ _ => rfl, read, ← whole]
      simp only [depth_object_lt]
      by_cases closed : levels ≤ 1
      · simp only [closed, if_true, not_true, false_and, if_false]
      · simp only [closed, if_false, not_false_eq_true, true_and]
        split <;> rfl

/-- The wire form of an item is one of its wire forms. -/
theorem writes_toJson (item : Item) : item.Writes item.toJson := by
  refine ⟨_, rfl, ?_⟩
  rw [← AttributeValue.toJson_map]
  exact AttributeValue.writes_toJson (.map item)

theorem Writes.numberless
    {item : Item}
    {document : Json}
    (written : item.Writes document) :
    Numberless document := by
  rcases written with ⟨members, rfl, written⟩
  cases written.numberless with
  | object each => exact each _ List.mem_cons_self

end ItemTable.Item

namespace ItemTable.AttributeValue

open Json

/-! ## Losslessness -/

/-- Values and items are read back from their wire forms, whatever the order in which
the entries of maps come, from documents as from their texts, as long as the forms are
nested no deeper than the reader allows.  However deep it is, a document is the wire form
of one value only. -/
theorem wire_lossless :
    (∀ value, Writes value value.toJson) ∧
      (∀ item : Item, item.Writes item.toJson) ∧
      (∀ value document,
        Writes value document → document.depth < depthLimit →
          Decoder.ofJson decode document = .ok value ∧
            Decoder.ofText decode document.render = .ok value) ∧
      (∀ (item : Item) document,
        item.Writes document → document.depth < depthLimit →
          Decoder.ofJson Item.decode document = .ok item ∧
            Decoder.ofText Item.decode document.render = .ok item) ∧
      (∀ value other document,
        Writes value document → Writes other document → value = other) ∧
      (∀ (item other : Item) document,
        item.Writes document → other.Writes document → item = other) := by
  refine ⟨writes_toJson, Item.writes_toJson, ?_, ?_, ?_, ?_⟩
  · intro value document written
    exact written.reads.ofJson_and_ofText written.numberless
  · intro item document written
    exact written.reads.ofJson_and_ofText written.numberless
  · intro value other document written otherWritten
    exact written.reads.unique otherWritten.reads
  · intro item other document written otherWritten
    exact written.reads.unique otherWritten.reads

/-- A map with a binary and a set of texts. -/
def parcel : AttributeValue :=
  .map (.ofList [("payload", .binary [116, 101, 115, 116]), ("tags", .stringSet ["x"])])

/-- The wire form of the parcel with the tags first. -/
def parcelTagsFirst : Json :=
  .object [("M", .object
    [("tags", .object [("SS", .array [.string "x"])]),
      ("payload", .object [("B", .string "dGVzdA==")])])]

/-- The parcel is read back also if its tags come first. -/
theorem wire_lossless_parcel :
    Writes parcel parcelTagsFirst ∧
      parcelTagsFirst.depth < depthLimit ∧
        Decoder.ofText decode parcelTagsFirst.render = .ok parcel := by
  have written : Writes parcel parcelTagsFirst := by
    refine .map (.swap _ _ _) ?_
    intro name value document found member
    rcases List.mem_cons.mp member with tags | member
    · cases tags
      obtain rfl : AttributeValue.stringSet ["x"] = value := Option.some.inj found
      exact .plain rfl rfl
    · cases List.mem_singleton.mp member
      obtain rfl : AttributeValue.binary [116, 101, 115, 116] = value := Option.some.inj found
      exact .plain rfl rfl
  have within : parcelTagsFirst.depth < depthLimit := by decide
  exact ⟨written, within, (wire_lossless.2.2.1 parcel parcelTagsFirst written within).2⟩

end ItemTable.AttributeValue
