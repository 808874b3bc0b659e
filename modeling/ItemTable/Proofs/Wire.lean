import ItemTable.Proofs.AttributeValue.Wire
import ItemTable.Proofs.Json.Fields
import ItemTable.Proofs.Json.Whole
import ItemTable.Reply
import ItemTable.Request
import Mathlib.Algebra.Order.Group.Multiset
import Mathlib.Tactic.Abel

/-!
# Requests and replies survive the wire

A request or a reply is read back from its wire form.  Fields that are left out because
they say nothing are restored, whatever else is there.
-/

namespace ItemTable.AttributeValue

open Json

/-! ## Attribute values -/

theorem eq_map_of_rearranged
    {α : Type}
    {write : α → Json}
    {values : List α}
    {documents : List Json}
    (flat : ∀ value other, (write value).Rearranged other → other = write value)
    (moved : List.Forall₂ Json.Rearranged (values.map write) documents) :
    documents = values.map write := by
  induction values generalizing documents with
  | nil =>
      cases moved
      rfl
  | cons value values ih =>
      cases moved with
      | cons here behind => rw [List.map_cons, flat value _ here, ih behind]

mutual

/-- A wire form of a value, rearranged, is a wire form of it. -/
theorem writes_of_rearranged
    (value : AttributeValue)
    {document : Json}
    (moved : value.toJson.Rearranged document) :
    Writes value document := by
  cases value with
  | string text | number text =>
      rcases moved.exists_payload with ⟨payload, rfl, inside⟩
      rw [inside.eq_string]
      exact .plain rfl rfl
  | binary bytes =>
      rcases moved.exists_payload with ⟨payload, rfl, inside⟩
      rw [inside.eq_string]
      exact .plain rfl rfl
  | bool value | null value =>
      rcases moved.exists_payload with ⟨payload, rfl, inside⟩
      rw [inside.eq_bool]
      exact .plain rfl rfl
  | stringSet texts | numberSet texts =>
      rcases moved.exists_payload with ⟨payload, rfl, inside⟩
      rcases inside.exists_items with ⟨documents, rfl, each⟩
      rw [eq_map_of_rearranged (fun _ _ => Rearranged.eq_string) each]
      exact .plain rfl rfl
  | binarySet members =>
      rcases moved.exists_payload with ⟨payload, rfl, inside⟩
      rcases inside.exists_items with ⟨documents, rfl, each⟩
      rw [eq_map_of_rearranged (fun _ _ => Rearranged.eq_string) each]
      exact .plain rfl rfl
  | list items =>
      rcases moved.exists_payload with ⟨payload, rfl, inside⟩
      rcases inside.exists_items with ⟨documents, rfl, each⟩
      refine .list ?_ (writes_of_rearranged_items items each)
      rw [← each.length_eq, itemsToJson_eq, List.length_map]
  | map fields =>
      rcases moved.exists_payload with ⟨payload, rfl, inside⟩
      rcases inside.exists_members with ⟨members, rfl, names, each⟩
      refine .map ?_ fun name value document found member => ?_
      · refine names.trans (.of_eq ?_)
        apply List.ext_get <;> simp
      · rcases each _ member with ⟨written, listed, moved⟩
        rcases List.mem_ofFn.mp listed with ⟨index, entry⟩
        cases entry
        rw [fields.find?_get index] at found
        cases found
        exact writes_of_rearranged (fields.value index) moved

theorem writes_of_rearranged_items
    (items : List AttributeValue)
    {documents : List Json}
    (moved : List.Forall₂ Json.Rearranged (itemsToJson items) documents) :
    ∀ pair ∈ items.zip documents, Writes pair.1 pair.2 := by
  cases items with
  | nil => exact nofun
  | cons item items =>
      cases moved with
      | cons here behind =>
          exact List.forall_mem_cons.mpr
            ⟨writes_of_rearranged item here, writes_of_rearranged_items items behind⟩

end

theorem recovers_toJson (value : AttributeValue) : Decoder.Recovers decode value.toJson value where
  filled := by cases value <;> exact nofun
  reads moved levels _ := (writes_of_rearranged value moved).reads levels

end ItemTable.AttributeValue

namespace ItemTable

open Json Json.Record Request

/-! ## Fields -/

theorem Item.recovers_toJson (item : Item) : Decoder.Recovers Item.decode item.toJson item :=
  .names fun _ value _ => value.recovers_toJson

theorem recovers_namesToJson (names : NameMap String) :
    (Decoder.names Decoder.string).Recovers (namesToJson names) names :=
  .names fun _ name _ => Decoder.recovers_string name

section Fields

variable (name : String)

theorem fills_text (text : Option String) :
    (textField name).Fills (textMember name text) text :=
  fills_optional fun text _ => Decoder.recovers_string text

theorem fills_flag (flag : Option Bool) :
    (flagField name).Fills (flagMember name flag) flag :=
  fills_optional fun flag _ => Decoder.recovers_bool flag

theorem fills_names (names : NameMap String) :
    namesField.Fills (namesMember names) names :=
  fills_defaulted (fun isEmpty => (NameMap.eq_empty isEmpty).symm) (recovers_namesToJson names)

theorem fills_item (item : Item) :
    (Record.defaulted name ∅ Item.decode).Fills (itemMember name item) item :=
  fills_defaulted (fun isEmpty => (NameMap.eq_empty isEmpty).symm) item.recovers_toJson

theorem fills_limit
    {limit : Option Int}
    (short : ∀ value ∈ limit, isInt32 value = true) :
    limitField.Fills (optionalMember "Limit" .ofInt limit) limit :=
  fills_optional fun value there => Decoder.recovers_int32 (short value there)

theorem fills_select (select : Option Select) :
    selectField.Fills (selectMember select) select :=
  fills_optional fun select _ => Decoder.recovers_choice (by cases select <;> rfl)

theorem fills_detail (detail : Option CapacityDetail) :
    capacityField.Fills (capacityMember detail) detail :=
  fills_optional fun detail _ => Decoder.recovers_choice (by cases detail <;> rfl)

theorem fills_units
    {units : Option Binary64}
    (finite : ∀ value ∈ units, value.isFinite = true) :
    (Record.optional name Decoder.real).Fills
      (optionalMember name ConsumedCapacity.unitsToJson units) units :=
  fills_optional fun value there => Decoder.recovers_real (finite value there)

end Fields

/-! ## Records -/

/-- The capacity that is reported has no units or finitely many. -/
def ConsumedCapacity.Finite (capacity : ConsumedCapacity) : Prop :=
  ∀ units, units ∈ capacity.units ∨ units ∈ capacity.readUnits ∨ units ∈ capacity.writeUnits →
    units.isFinite = true

theorem ConsumedCapacity.recovers
    {capacity : ConsumedCapacity}
    (finite : capacity.Finite) :
    ConsumedCapacity.record.decode.Recovers capacity.toJson capacity := by
  refine Fills.recovers ?_ (by decide) (.refl _)
  exact (fills_text "TableName" capacity.tableName).map
    |>.seq (fills_units "CapacityUnits" fun units there => finite units (.inl there))
    |>.seq (fills_units "ReadCapacityUnits" fun units there => finite units (.inr (.inl there)))
    |>.seq (fills_units "WriteCapacityUnits" fun units there => finite units (.inr (.inr there)))

theorem fills_capacity
    {capacity : Option ConsumedCapacity}
    (finite : ∀ report ∈ capacity, report.Finite) :
    ConsumedCapacity.field.Fills (ConsumedCapacity.member capacity) capacity :=
  fills_optional fun report there => ConsumedCapacity.recovers (finite report there)

/-- The value is read back from what it is written as, in whatever order the members come:
from the document, by every reader with enough levels for it, and from every text that
holds the document, unless it is nested too deeply for the reader of texts. -/
def Survives
    {α : Type}
    (record : Record α)
    (write : α → Json)
    (value : α) :
    Prop :=
  ∀ document, (write value).Rearranged document →
    record.decode.Reads document value ∧
      ∀ text, parse? text = some document →
        record.decode.ofText text =
          if document.depth < depthLimit then .ok value else .error .malformed

theorem Json.Record.Fills.survives
    {α : Type}
    {record : Record α}
    {write : α → Json}
    {members pieces : List (String × Json)}
    {value : α}
    (fills : record.Fills pieces value)
    (distinct : (record.fields.map Field.name).Nodup)
    (ordered : members.Perm pieces)
    (written : write value = .object members) :
    Survives record write value := by
  intro document moved
  have reads := fills.reads distinct ordered (written ▸ moved)
  refine ⟨reads, fun text holds => ?_⟩
  rw [Decoder.ofText_eq_ofJson (read_of_parse? holds), Decoder.ofJson, reads]

theorem GetRequest.survives (request : GetRequest) :
    Survives GetRequest.record GetRequest.toJson request := by
  refine Fills.survives ?_ (by decide) (.refl _) rfl
  exact (fills_required (Decoder.recovers_string request.tableName)).map
    |>.seq (fills_required request.key.recovers_toJson)
    |>.seq (fills_flag "ConsistentRead" request.consistent)
    |>.seq (fills_text "ProjectionExpression" request.projection)
    |>.seq (fills_names request.names)
    |>.seq (fills_detail request.capacity)

theorem PutRequest.survives (request : PutRequest) :
    Survives PutRequest.record PutRequest.toJson request := by
  refine Fills.survives ?_ (by decide) (.refl _) rfl
  exact (fills_required (Decoder.recovers_string request.tableName)).map
    |>.seq (fills_required request.item.recovers_toJson)
    |>.seq (fills_text "ConditionExpression" request.condition)
    |>.seq (fills_names request.names)
    |>.seq (fills_item "ExpressionAttributeValues" request.values)
    |>.seq (fills_detail request.capacity)

theorem DeleteRequest.survives (request : DeleteRequest) :
    Survives DeleteRequest.record DeleteRequest.toJson request := by
  refine Fills.survives ?_ (by decide) (.refl _) rfl
  exact (fills_required (Decoder.recovers_string request.tableName)).map
    |>.seq (fills_required request.key.recovers_toJson)
    |>.seq (fills_text "ConditionExpression" request.condition)
    |>.seq (fills_names request.names)
    |>.seq (fills_item "ExpressionAttributeValues" request.values)
    |>.seq (fills_detail request.capacity)

theorem ScanRequest.survives
    {request : ScanRequest}
    (short : ∀ limit ∈ request.limit, isInt32 limit = true) :
    Survives ScanRequest.record ScanRequest.toJson request := by
  have fills : ScanRequest.record.Fills _ request :=
    (fills_required (Decoder.recovers_string request.tableName)).map
      |>.seq (fills_text "IndexName" request.index)
      |>.seq (fills_text "FilterExpression" request.filter)
      |>.seq (fills_text "ProjectionExpression" request.projection)
      |>.seq (fills_names request.names)
      |>.seq (fills_item "ExpressionAttributeValues" request.values)
      |>.seq (fills_limit short)
      |>.seq (fills_item "ExclusiveStartKey" request.start)
      |>.seq (fills_select request.select)
      |>.seq (fills_flag "ConsistentRead" request.consistent)
      |>.seq (fills_detail request.capacity)
  refine fills.survives (by decide) (.of_eq ?_) rfl
  simp only [ScanRequest.members, List.append_assoc]

/-- The members of a query come in another order than its fields. -/
theorem QueryRequest.survives
    {request : QueryRequest}
    (short : ∀ limit ∈ request.limit, isInt32 limit = true) :
    Survives QueryRequest.record QueryRequest.toJson request := by
  have fills : QueryRequest.record.Fills _ request :=
    (fills_required (Decoder.recovers_string request.tableName)).map
      |>.seq (fills_text "IndexName" request.index)
      |>.seq (fills_text "KeyConditionExpression" request.keyCondition)
      |>.seq (fills_text "FilterExpression" request.filter)
      |>.seq (fills_text "ProjectionExpression" request.projection)
      |>.seq (fills_names request.names)
      |>.seq (fills_item "ExpressionAttributeValues" request.values)
      |>.seq (fills_flag "ScanIndexForward" request.forward)
      |>.seq (fills_limit short)
      |>.seq (fills_item "ExclusiveStartKey" request.start)
      |>.seq (fills_select request.select)
      |>.seq (fills_flag "ConsistentRead" request.consistent)
      |>.seq (fills_detail request.capacity)
  refine fills.survives (by decide) ?_ rfl
  -- Both orders are sums of the same members, taken as multisets.
  rw [← Multiset.coe_eq_coe]
  simp only [ScanRequest.members, ← Multiset.coe_add]
  abel

theorem GetReply.survives
    {reply : GetReply}
    (finite : ∀ report ∈ reply.capacity, report.Finite) :
    Survives GetReply.record GetReply.toJson reply := by
  refine Fills.survives ?_ (by decide) (.refl _) rfl
  exact (fills_optional fun item _ => item.recovers_toJson).map
    |>.seq (fills_capacity finite)

theorem WriteReply.survives
    {reply : WriteReply}
    (finite : ∀ report ∈ reply.capacity, report.Finite) :
    Survives WriteReply.record WriteReply.toJson reply := by
  refine Fills.survives ?_ (by decide) (.refl _) rfl
  exact (fills_capacity finite).map

theorem PageReply.survives
    {reply : PageReply}
    (shortCount : isInt32 reply.count = true)
    (shortScanned : isInt32 reply.scannedCount = true)
    (finite : ∀ report ∈ reply.capacity, report.Finite) :
    Survives PageReply.record PageReply.toJson reply := by
  have items : (Record.defaulted "Items" [] (Decoder.list Item.decode)).Fills
      (if reply.items.isEmpty then [] else [("Items", .array (reply.items.map Item.toJson))])
      reply.items :=
    fills_defaulted (fun isEmpty => (List.isEmpty_iff.mp isEmpty).symm)
      (.list fun item _ => item.recovers_toJson)
  have fills : PageReply.record.Fills _ reply :=
    items.map
      |>.seq (fills_required (Decoder.recovers_int32 shortCount))
      |>.seq (fills_required (Decoder.recovers_int32 shortScanned))
      |>.seq (fills_item "LastEvaluatedKey" reply.lastKey)
      |>.seq (fills_capacity finite)
  refine fills.survives (by decide) (.of_eq ?_) rfl
  simp only [itemMember, List.append_assoc, List.cons_append, List.nil_append]

/-- Every request and every reply survives the wire, if its limits and counts have 32 bits
and its capacity units are finite.  The replies to puts and deletes are of one kind, and so
are those to queries and scans. -/
theorem requests_and_replies_survive :
    (∀ request : GetRequest, Survives GetRequest.record GetRequest.toJson request) ∧
      (∀ request : PutRequest, Survives PutRequest.record PutRequest.toJson request) ∧
      (∀ request : DeleteRequest, Survives DeleteRequest.record DeleteRequest.toJson request) ∧
      (∀ request : QueryRequest, (∀ limit ∈ request.limit, isInt32 limit = true) →
        Survives QueryRequest.record QueryRequest.toJson request) ∧
      (∀ request : ScanRequest, (∀ limit ∈ request.limit, isInt32 limit = true) →
        Survives ScanRequest.record ScanRequest.toJson request) ∧
      (∀ reply : GetReply, (∀ report ∈ reply.capacity, report.Finite) →
        Survives GetReply.record GetReply.toJson reply) ∧
      (∀ reply : WriteReply, (∀ report ∈ reply.capacity, report.Finite) →
        Survives WriteReply.record WriteReply.toJson reply) ∧
      (∀ reply : PageReply,
        isInt32 reply.count = true → isInt32 reply.scannedCount = true →
          (∀ report ∈ reply.capacity, report.Finite) →
            Survives PageReply.record PageReply.toJson reply) :=
  ⟨GetRequest.survives, PutRequest.survives, DeleteRequest.survives,
    fun _ => QueryRequest.survives, fun _ => ScanRequest.survives,
    fun _ => GetReply.survives, fun _ => WriteReply.survives,
    fun _ => PageReply.survives⟩

/-- A page of which only the numbers are wanted. -/
def countReply : PageReply :=
  ⟨[], 1, 2, ∅, some ⟨none, some (.ofRatio false 1 2), none, none⟩⟩

/-- The wire form of the page with its numbers in another order. -/
def countDocument : Json :=
  .object
    [("ScannedCount", .ofInt 2), ("Count", .ofInt 1),
      ("ConsumedCapacity",
        .object [("CapacityUnits", ConsumedCapacity.unitsToJson (.ofRatio false 1 2))])]

/-- A text that holds this document. -/
def countText : String :=
  "\x7b\"ScannedCount\": 2, \"Count\": 1, \"ConsumedCapacity\": \x7b\"CapacityUnits\": 0.5\x7d\x7d"

theorem parse?_countText : parse? countText = some countDocument := by
  have length : countText.length = 75 := rfl
  have half : (Numeral.decimal false (Nat.ofDigitChars 10 ['0', '5'] 0) (-1)).toBinary64 =
      .ofRatio false 1 2 := by decide
  have two : Draft.classify false (Nat.ofDigitChars 10 ['2'] 0) = .integer 2 := by decide
  have one : Draft.classify false (Nat.ofDigitChars 10 ['1'] 0) = .integer 1 := by decide
  have read : Draft.read countText = (.ofJson countDocument, true) := by
    rw [Draft.read, length]
    simp [countText, Draft.readValue, Draft.readMembers, Draft.readText, Draft.skipBlanks,
      Draft.readNumber, Draft.readDigits, Draft.readFraction, Draft.readExponent, one, two, half,
      countDocument, Json.ofInt, ConsumedCapacity.unitsToJson, Draft.ofJson, Draft.ofMembers]
  rw [parse?, read]
  rfl

/-- A request for two items of a partition. -/
def briefQuery : QueryRequest where
  tableName := "Thread"
  index := none
  filter := none
  projection := none
  names := ∅
  values := ∅
  limit := some 2
  start := ∅
  select := none
  consistent := none
  capacity := none
  keyCondition := none
  forward := none

/-- The page is read from the text, and the query from its document. -/
theorem countReply_and_briefQuery_survive :
    PageReply.record.decode.ofText countText = .ok countReply ∧
      QueryRequest.record.decode 2 (.ofJson briefQuery.toJson) = .ok briefQuery := by
  have moved : countReply.toJson.Rearranged countDocument :=
    .of_perm (by decide) (.swap _ _ _)
  have finite : ∀ report ∈ countReply.capacity, report.Finite := by
    rintro _ ⟨⟩ units (⟨⟨⟩⟩ | ⟨⟨⟩⟩ | ⟨⟨⟩⟩)
    decide
  have short : ∀ limit ∈ briefQuery.limit, isInt32 limit = true := by
    rintro _ ⟨⟩
    decide
  rcases requests_and_replies_survive with ⟨-, -, -, query, -, -, -, page⟩
  constructor
  · exact ((page countReply (by decide) (by decide) finite) countDocument moved).2 countText
      parse?_countText
  · exact ((query briefQuery short) _ (.same _)).1 2

end ItemTable
