import ItemTable.Form.Basic
import ItemTable.Proofs.Json.Rearranged
import ItemTable.Proofs.Remote.Value
import ItemTable.Proofs.Service.Recording
import ItemTable.Remote.Service
import Mathlib.Algebra.Order.Group.Multiset
import Mathlib.Tactic.Abel

/-!
# Calls say what requests say

The body of a call is put together apart from the wire form of its request, member by member
and in another order.  Both have the same members all the same, whatever the request sets and
leaves out, and the values in them are those of the request at every depth.
-/

namespace ItemTable

open Json Request

/-! ## Members in any order -/

namespace Json

/-- The documents are objects with the same members, each under a name of its own, in any
order. -/
def SameMembers (document other : Json) : Prop :=
  ∃ members others,
    document = .object members ∧ other = .object others ∧
      (members.map Prod.fst).Nodup ∧ others.Perm members

variable {document other : Json}

theorem SameMembers.member?_eq
    (same : document.SameMembers other)
    (name : String) :
    other.member? name = document.member? name := by
  rcases same with ⟨members, others, rfl, rfl, distinct, ordered⟩
  exact AssociationList.lookup_eq_of_perm distinct ordered name

/-- However the members are rearranged further, the document is the same up to order. -/
theorem SameMembers.rearranged
    {sent : Json}
    (same : document.SameMembers other)
    (moved : other.Rearranged sent) :
    document.Rearranged sent := by
  rcases same with ⟨members, others, rfl, rfl, distinct, ordered⟩
  rcases moved.exists_members with ⟨arrived, rfl, names, each⟩
  refine .object (names.trans (ordered.map Prod.fst)) fun name value found there here => ?_
  rcases each _ here with ⟨written, listed, moved⟩
  have one := AssociationList.lookup_of_mem distinct (ordered.subset listed)
  rw [AssociationList.lookup_of_mem distinct there, Option.some.injEq] at one
  exact one ▸ moved

end Json

/-! ## Requests of any kind -/

namespace Request

def tableName : Request → String
  | get request => request.tableName
  | put request => request.tableName
  | delete request => request.tableName
  | query request => request.tableName
  | scan request => request.tableName

/-- The key of the item that is asked for or deleted. -/
def key? : Request → Option Item
  | get request => some request.key
  | delete request => some request.key
  | _ => none

/-- The item that is stored. -/
def item? : Request → Option Item
  | put request => some request.item
  | _ => none

/-- The key that a read goes on from. -/
def start : Request → Item
  | query request => request.start
  | scan request => request.start
  | _ => ∅

/-- The document of a map that has entries. -/
def unlessEmpty
    {α : Type}
    (write : NameMap α → Json)
    (map : NameMap α) :
    Option Json :=
  if map.isEmpty then none else some (write map)

/-- The document tells the maps of the request: its key and its item even if they are empty,
the others only if they are not. -/
structure TellsMaps (request : Request) (document : Json) : Prop where
  key : document.member? "Key" = request.key?.map Item.toJson
  item : document.member? "Item" = request.item?.map Item.toJson
  names :
    document.member? "ExpressionAttributeNames" = unlessEmpty namesToJson request.names
  values :
    document.member? "ExpressionAttributeValues" = unlessEmpty Item.toJson request.values
  start : document.member? "ExclusiveStartKey" = unlessEmpty Item.toJson request.start

section Members

variable (name other : String)

theorem lookup_optionalMember
    {α : Type}
    (write : α → Json)
    (value : Option α) :
    (optionalMember name write value).lookup other =
      if other = name then value.map write else none := by
  cases value with
  | none => exact (ite_self none).symm
  | some value => exact AssociationList.lookup_cons_ite (name, write value) [] other

theorem namesMember_eq (names : NameMap String) :
    namesMember names =
      optionalMember "ExpressionAttributeNames" id (unlessEmpty namesToJson names) := by
  rw [namesMember, unlessEmpty]
  split <;> rfl

theorem itemMember_eq (item : Item) :
    itemMember name item = optionalMember name id (unlessEmpty Item.toJson item) := by
  rw [itemMember, unlessEmpty]
  split <;> rfl

theorem lookup_namesMember (names : NameMap String) :
    (namesMember names).lookup other =
      if other = "ExpressionAttributeNames" then unlessEmpty namesToJson names else none := by
  rw [namesMember_eq, lookup_optionalMember, Option.map_id]
  rfl

theorem lookup_itemMember (item : Item) :
    (itemMember name item).lookup other =
      if other = name then unlessEmpty Item.toJson item else none := by
  rw [itemMember_eq, lookup_optionalMember, Option.map_id]
  rfl

end Members

/-- The wire form of a request tells its maps. -/
theorem tellsMaps_toJson (request : Request) : request.TellsMaps request.toJson := by
  -- Only one piece of the wire form has the name that is looked up.
  cases request <;> constructor <;>
    simp [toJson, GetRequest.toJson, PutRequest.toJson, DeleteRequest.toJson, QueryRequest.toJson,
      ScanRequest.toJson, ScanRequest.members, member?, List.lookup_append, textMember,
      flagMember, capacityMember, selectMember, lookup_optionalMember, lookup_namesMember,
      lookup_itemMember, key?, item?, names, values, start, AssociationList.lookup_cons_ite] <;>
    rfl

/-- What a document tells does not depend on the order of its members. -/
theorem TellsMaps.of_sameMembers
    {request : Request}
    {document other : Json}
    (tells : request.TellsMaps document)
    (same : document.SameMembers other) :
    request.TellsMaps other where
  key := (same.member?_eq _).trans tells.key
  item := (same.member?_eq _).trans tells.item
  names := (same.member?_eq _).trans tells.names
  values := (same.member?_eq _).trans tells.values
  start := (same.member?_eq _).trans tells.start

end Request

/-! ## Members of calls -/

namespace RemoteCall

/-- The call for a request of any kind. -/
def ofRequest : Request → RemoteCall
  | .get request => ofGet request
  | .put request => ofPut request
  | .delete request => ofDelete request
  | .query request => ofQuery request
  | .scan request => ofScan request

/-- The members of the body, each of which may be left out. -/
theorem ofMembers_body
    (operation : Operation)
    (tableName : String)
    (members : List (String × Option Json)) :
    (ofMembers operation tableName members).body =
      .object ((("TableName", some (.string tableName)) :: members).flatMap fun member =>
        optionalMember member.1 id member.2) := by
  rw [ofMembers, List.filterMap_eq_flatMap_toList, List.flatMap_cons]
  refine congrArg (fun behind => Json.object (("TableName", .string tableName) :: behind)) ?_
  refine congrArg (members.flatMap ·) (funext fun (name, value) => ?_)
  cases value <;> rfl

/-- Members that are left out leave the names of the others as they are. -/
theorem sublist_names (members : List (String × Option Json)) :
    ((members.flatMap fun member => optionalMember member.1 id member.2).map Prod.fst).Sublist
      (members.map Prod.fst) := by
  induction members with
  | nil => exact .slnil
  | cons member members ih =>
      rcases member with ⟨name, _ | value⟩
      · exact ih.cons name
      · exact ih.cons_cons name

theorem optionalMember_some (name : String) (value : Json) :
    optionalMember name id (some value) = [(name, value)] :=
  rfl

theorem optionalMember_map
    {α : Type}
    (name : String)
    (write : α → Json)
    (value : Option α) :
    optionalMember name id (value.map write) = optionalMember name write value := by
  cases value <;> rfl

/-! The pieces of a body are those of the wire form. -/

theorem optionalMember_detail (detail : Option CapacityDetail) :
    optionalMember "ReturnConsumedCapacity" capacityDetail detail = capacityMember detail :=
  rfl

theorem item_eq_toJson (fields : Item) : item fields = fields.toJson :=
  RemoteValue.fieldsToJson_ofItem fields

theorem optionalMember_itemIfAny (name : String) (fields : Item) :
    optionalMember name id (itemIfAny fields) = itemMember name fields := by
  rw [itemMember_eq, itemIfAny, item_eq_toJson]
  rfl

theorem optionalMember_namesIfAny (names : NameMap String) :
    optionalMember "ExpressionAttributeNames" id (namesIfAny names) = namesMember names := by
  rw [namesMember_eq, namesIfAny, NameMap.toList_map]
  rfl

theorem sameMembers_of_perm
    {operation : Operation}
    {tableName : String}
    {members : List (String × Json)}
    {parts : List (String × Option Json)}
    (distinct : ("TableName" :: parts.map Prod.fst).Nodup)
    (ordered : ((("TableName", some (Json.string tableName)) :: parts).flatMap fun part =>
      optionalMember part.1 id part.2).Perm members) :
    SameMembers (.object members) (ofMembers operation tableName parts).body := by
  refine ⟨members, _, rfl, ofMembers_body operation tableName parts, ?_, ordered⟩
  exact (ordered.map Prod.fst).nodup_iff.mp (distinct.sublist (sublist_names _))

/-- The body of a call has the members of the wire form of the request. -/
theorem sameMembers_ofRequest (request : Request) :
    SameMembers request.toJson (ofRequest request).body := by
  cases request
  all_goals
    refine sameMembers_of_perm ?distinct ?ordered
    case distinct => simp [readMembers]
    case ordered =>
      -- Both orders are sums of the same pieces, taken as multisets.
      rw [← Multiset.coe_eq_coe]
      simp only [readMembers, ScanRequest.members, textMember, flagMember, selectMember,
        List.cons_append, List.nil_append, List.flatMap_cons, List.flatMap_nil,
        optionalMember_some, optionalMember_map, optionalMember_detail, optionalMember_itemIfAny,
        optionalMember_namesIfAny, item_eq_toJson, ← Multiset.coe_add, ← Multiset.cons_coe,
        ← Multiset.singleton_add, Multiset.coe_nil]
      abel

/-- The call asks for the operation on the table, with the members of the request's wire form,
and tells its maps. -/
structure Says (call : RemoteCall) (request : Request) : Prop where
  operation : call.operation = request.operation
  tableName : call.tableName = request.tableName
  body : request.toJson.SameMembers call.body
  maps : request.TellsMaps call.body

theorem says_ofRequest (request : Request) : (ofRequest request).Says request where
  operation := by cases request <;> rfl
  tableName := by cases request <;> rfl
  body := sameMembers_ofRequest request
  maps := request.tellsMaps_toJson.of_sameMembers (sameMembers_ofRequest request)

end RemoteCall

/-! ## Requests to a remote service -/

namespace Connection

variable {σ : Type}

/-- The state behind a connection when the service at its other end has answered. -/
def after (connection : Connection σ) (request : Request) (state : σ) : σ :=
  match request with
  | .get request => (connection.service.get request state).2
  | .put request => (connection.service.put request state).2
  | .delete request => (connection.service.delete request state).2
  | .query request => (connection.service.query request state).2
  | .scan request => (connection.service.scan request state).2

theorem send_state
    {α : Type}
    (connection : Connection σ)
    (read : RemoteAnswer → Except RemoteAnswer.Fault α)
    (call : RemoteCall)
    (state : σ) :
    (connection.send read call state).2 =
      if call.isAddressed then (connection.exchange call state).2 else state := by
  rw [send]
  split
  case isTrue => rcases connection.exchange call state with ⟨_ | answer, next⟩ <;> rfl
  case isFalse => rfl

/-- A request is exchanged once, as its call, if that has an address. -/
theorem after_eq
    (connection : Connection σ)
    (request : Request)
    (state : σ) :
    connection.after request state =
      if (RemoteCall.ofRequest request).isAddressed then
        (connection.exchange (.ofRequest request) state).2
      else
        state := by
  cases request <;> exact connection.send_state _ _ state

end Connection

open RemoteValue (ofValue ofItem)

/-- A remote service is sent what requests say.  Each request is exchanged as its call, and
the call says what the request says, in whatever order its members are sent.  Values and items
are read back from messages, in whatever order the entries of their maps come. -/
theorem RemoteCall.calls_say_requests :
    (∀ {σ : Type} (connection : Connection σ) (request : Request) (state : σ),
      connection.after request state =
        if (ofRequest request).isAddressed then
          (connection.exchange (ofRequest request) state).2
        else
          state) ∧
      (∀ request : Request,
        (ofRequest request).Says request ∧ request.TellsMaps request.toJson) ∧
      (∀ (request : Request) (sent : Json),
        (ofRequest request).body.Rearranged sent → request.toJson.Rearranged sent) ∧
      (∀ value : AttributeValue,
        (ofValue value).Carries value ∧
          (ofValue value).value? = some value ∧ (ofValue value).toJson = value.toJson) ∧
      (∀ (form : RemoteValue) (value : AttributeValue), form.Carries value →
        form.value? = some value ∧ value.Writes form.toJson) ∧
      (∀ item : Item, RemoteValue.item? (ofItem item) = some item) ∧
      (∀ (fields : List (String × RemoteValue)) (item : Item),
        (RemoteValue.map fields).Carries (.map item) →
          RemoteValue.item? fields = some item) := by
  refine ⟨Connection.after_eq, fun request => ⟨says_ofRequest request, request.tellsMaps_toJson⟩,
    fun request sent => (sameMembers_ofRequest request).rearranged,
    fun value => ?values, fun form value carries => ⟨carries.value?_eq, carries.writes⟩,
    fun item => ?items, fun fields item => RemoteValue.item?_eq_of_carries⟩
  case values =>
    have carries := RemoteValue.carries_ofValue value
    exact ⟨carries, carries.value?_eq, RemoteValue.toJson_ofValue value⟩
  case items =>
    have carries := RemoteValue.carries_ofValue (.map item)
    rw [RemoteValue.ofValue_map] at carries
    exact RemoteValue.item?_eq_of_carries carries

/-- A request to store an item without fields. -/
def putBlank : PutRequest where
  tableName := "Parcel"
  item := ∅
  condition := none
  names := ∅
  values := ∅
  capacity := none

/-- The body of its call with the item first, which is sent though it is empty. -/
def blankFirst : Json :=
  .object [("Item", .object []), ("TableName", .string "Parcel")]

/-- The fields of a parcel in a message, with the tags first. -/
def fieldsTagsFirst : List (String × RemoteValue) :=
  [("tags", .stringSet ["x"]), ("payload", .binary [116, 101, 115, 116])]

theorem RemoteCall.calls_say_requests_parcel :
    (Request.put putBlank).toJson.Rearranged blankFirst ∧
      (RemoteValue.map fieldsTagsFirst).value? = some AttributeValue.parcel ∧
        RemoteValue.item? fieldsTagsFirst =
          some (.ofList
            [("payload", .binary [116, 101, 115, 116]), ("tags", .stringSet ["x"])]) := by
  have moved : (ofRequest (.put putBlank)).body.Rearranged blankFirst :=
    .of_perm (by decide) (.swap _ _ _)
  have carries : (RemoteValue.map fieldsTagsFirst).Carries AttributeValue.parcel := by
    refine .map (.swap _ _ _) fun name form value member found => ?_
    rcases List.mem_cons.mp member with tags | member
    · cases tags
      obtain rfl : AttributeValue.stringSet ["x"] = value := Option.some.inj found
      exact RemoteValue.carries_ofValue (.stringSet ["x"])
    · cases List.mem_singleton.mp member
      obtain rfl : AttributeValue.binary [116, 101, 115, 116] = value := Option.some.inj found
      exact RemoteValue.carries_ofValue (.binary [116, 101, 115, 116])
  rcases calls_say_requests with ⟨-, -, rearranged, -, values, -, items⟩
  exact ⟨rearranged _ _ moved, (values _ _ carries).1, items _ _ carries⟩

end ItemTable
