import ItemTable.Proofs.AttributeValue.Wire
import ItemTable.Proofs.Json.Acceptance
import ItemTable.Proofs.Json.Whole

/-!
# The decoder accepts exactly the format

The format of attribute values as rules on documents, and what the first problem of a
document is that has not this format.  The decoder reads a document as the values that it
stands for, and reports its first problem otherwise.

A document is taken as it stands in a text: a number may be too great, and a name or a
text may hold half a surrogate pair, which no value can.
-/

namespace ItemTable.AttributeValue

open Json

/-! ## The format -/

/-- The text is the base64 of the bytes, with padding. -/
def IsBase64 (text : String) (bytes : List UInt8) : Prop :=
  text = String.ofList (Base64.encode bytes)

/-- The kinds of attribute values. -/
inductive Kind where
  | string
  | number
  | binary
  | stringSet
  | numberSet
  | binarySet
  | bool
  | null
  | list
  | map

/-- The names of the kinds in documents. -/
def Kind.name : Kind → String
  | string => "S"
  | number => "N"
  | binary => "B"
  | stringSet => "SS"
  | numberSet => "NS"
  | binarySet => "BS"
  | bool => "BOOL"
  | null => "NULL"
  | list => "L"
  | map => "M"

mutual

/-- The document has the format of attribute values and stands for the value. -/
inductive Denotes : Draft → AttributeValue → Prop where
  | intro
      {kind : Kind}
      {name : String}
      {payload : Draft}
      {value : AttributeValue}
      (named : kind.name = name)
      (holds : Holds kind payload value) :
      Denotes (.object [(some name, payload)] true) value

/-- Under the name of the kind stands what stands for the value. -/
inductive Holds : Kind → Draft → AttributeValue → Prop where
  | string
      {payload : Draft}
      {text : String}
      (content : Fits .text payload text) :
      Holds .string payload (.string text)
  | number
      {payload : Draft}
      {text : String}
      (content : Fits .text payload text) :
      Holds .number payload (.number text)
  | binary
      {payload : Draft}
      {text : String}
      {bytes : List UInt8}
      (content : Fits .text payload text)
      (valid : IsBase64 text bytes) :
      Holds .binary payload (.binary bytes)
  | stringSet
      {payload : Draft}
      {texts : List String}
      (content : IsArray (Fits .text) payload texts) :
      Holds .stringSet payload (.stringSet texts)
  | numberSet
      {payload : Draft}
      {texts : List String}
      (content : IsArray (Fits .text) payload texts) :
      Holds .numberSet payload (.numberSet texts)
  | binarySet
      {payload : Draft}
      {texts : List String}
      {members : List (List UInt8)}
      (content : IsArray (Fits .text) payload texts)
      (valid : List.Forall₂ IsBase64 texts members) :
      Holds .binarySet payload (.binarySet members)
  | bool
      {payload : Draft}
      {value : Bool}
      (content : Fits .bool payload value) :
      Holds .bool payload (.bool value)
  | null
      {payload : Draft}
      {value : Bool}
      (content : Fits .bool payload value) :
      Holds .null payload (.null value)
  | list
      {payload : Draft}
      {items : List AttributeValue}
      (content : IsArray Denotes payload items) :
      Holds .list payload (.list items)
  | map
      {payload : Draft}
      {fields : Item}
      (content : IsObject Denotes payload fields) :
      Holds .map payload (.map fields)

end

/-! ## Problems -/

/-- The text is the base64 of no bytes. -/
structure NoBase64 (text : String) (error : DecodeError) : Prop where
  invalid : ∀ bytes, ¬IsBase64 text bytes
  reported : error = .notBase64

/-- There is something behind the first member of a document, whatever it is. -/
inductive Surplus : List (Option String × Draft) → DecodeError → Prop where
  | anotherKind
      {name : String}
      {document : Draft}
      {others : List (Option String × Draft)} :
      Surplus ((some name, document) :: others) .notOneKind
  | unreadable
      {document : Draft}
      {others : List (Option String × Draft)} :
      Surplus ((none, document) :: others) .malformed

mutual

/-- What stands first in reading order of all that keeps a document from having the
format. -/
inductive FirstProblem : Draft → DecodeError → Prop where
  | noObject
      {document : Draft}
      (other : ∀ members closed, document ≠ .object members closed) :
      FirstProblem document document.problem
  | noKind : FirstProblem (.object [] true) .notOneKind
  | unreadable
      {payload : Draft}
      {others : List (Option String × Draft)} :
      FirstProblem (.object ((none, payload) :: others) true) .malformed
  /-- The first name is that of no kind, whatever stands under it and behind. -/
  | unknownKind
      {name : String}
      {payload : Draft}
      {others : List (Option String × Draft)}
      (unknown : ∀ kind : Kind, kind.name ≠ name) :
      FirstProblem (.object ((some name, payload) :: others) true) (.unknownKind name)
  /-- What stands under the first name has a problem, whatever comes behind. -/
  | payload
      {kind : Kind}
      {name : String}
      {payload : Draft}
      {others : List (Option String × Draft)}
      {error : DecodeError}
      (named : kind.name = name)
      (problem : PayloadProblem kind payload error) :
      FirstProblem (.object ((some name, payload) :: others) true) error
  | surplus
      {kind : Kind}
      {name : String}
      {payload : Draft}
      {value : AttributeValue}
      {others : List (Option String × Draft)}
      {error : DecodeError}
      (named : kind.name = name)
      (right : Holds kind payload value)
      (problem : Surplus others error) :
      FirstProblem (.object ((some name, payload) :: others) true) error

/-- What stands first in reading order of all that keeps a payload from being one of the
kind. -/
inductive PayloadProblem : Kind → Draft → DecodeError → Prop where
  | string
      {payload : Draft}
      {error : DecodeError}
      (problem : Misfits .text payload error) :
      PayloadProblem .string payload error
  | number
      {payload : Draft}
      {error : DecodeError}
      (problem : Misfits .text payload error) :
      PayloadProblem .number payload error
  | binary
      {payload : Draft}
      {error : DecodeError}
      (problem : Misfits .text payload error) :
      PayloadProblem .binary payload error
  | base64
      {payload : Draft}
      {text : String}
      {error : DecodeError}
      (content : Fits .text payload text)
      (problem : NoBase64 text error) :
      PayloadProblem .binary payload error
  | stringSet
      {payload : Draft}
      {error : DecodeError}
      (problem : NoArray (Fits .text) (Misfits .text) payload error) :
      PayloadProblem .stringSet payload error
  | numberSet
      {payload : Draft}
      {error : DecodeError}
      (problem : NoArray (Fits .text) (Misfits .text) payload error) :
      PayloadProblem .numberSet payload error
  | binarySet
      {payload : Draft}
      {error : DecodeError}
      (problem : NoArray (Fits .text) (Misfits .text) payload error) :
      PayloadProblem .binarySet payload error
  /-- What the texts are matters only where all members are texts. -/
  | base64Set
      {payload : Draft}
      {texts : List String}
      {error : DecodeError}
      (content : IsArray (Fits .text) payload texts)
      (problem : FirstAmong IsBase64 NoBase64 texts error) :
      PayloadProblem .binarySet payload error
  | bool
      {payload : Draft}
      {error : DecodeError}
      (problem : Misfits .bool payload error) :
      PayloadProblem .bool payload error
  | null
      {payload : Draft}
      {error : DecodeError}
      (problem : Misfits .bool payload error) :
      PayloadProblem .null payload error
  | list
      {payload : Draft}
      {error : DecodeError}
      (problem : NoArray Denotes FirstProblem payload error) :
      PayloadProblem .list payload error
  | map
      {payload : Draft}
      {error : DecodeError}
      (problem : NoObject Denotes FirstProblem payload error) :
      PayloadProblem .map payload error

end

/-! ## Binaries -/

/-- A text is decoded as the bytes whose base64 it is. -/
theorem settles_decodeBytes (text : String) :
    Settles (decodeBytes text) (IsBase64 text) (NoBase64 text) := by
  rw [decodeBytes]
  split
  next bytes decoded =>
    have encoded : IsBase64 text bytes := by
      rw [IsBase64, Base64.encode_of_decode? decoded, String.ofList_toList]
    constructor
    · intro other
      constructor
      · rintro ⟨⟩
        exact encoded
      · rintro rfl
        rw [String.toList_ofList, Base64.decode?_encode] at decoded
        cases decoded
        rfl
    · intro error
      constructor
      · rintro ⟨⟩
      · intro problem
        exact absurd encoded (problem.invalid bytes)
  next refused =>
    have invalid : ∀ bytes, ¬IsBase64 text bytes := by
      rintro bytes rfl
      rw [String.toList_ofList, Base64.decode?_encode] at refused
      cases refused
    exact settles_of_error rfl invalid fun error => ⟨NoBase64.reported, fun same => ⟨invalid, same⟩⟩

section Payloads

variable
  {levels : Nat}
  {payload : Draft}

theorem decides_binary :
    Decoder.Decides decodeBinary
      (fun document bytes => ∃ text, Fits .text document text ∧ IsBase64 text bytes)
      (fun document error =>
        Misfits .text document error ∨ ∃ text, Fits .text document text ∧ NoBase64 text error)
      levels :=
  fun within => (Decoder.decides_string within).bind settles_decodeBytes

theorem decides_binaries :
    Decoder.Decides decodeBinaries
      (fun document members =>
        ∃ texts, IsArray (Fits .text) document texts ∧ List.Forall₂ IsBase64 texts members)
      (fun document error =>
        NoArray (Fits .text) (Misfits .text) document error ∨
          ∃ texts, IsArray (Fits .text) document texts ∧
            FirstAmong IsBase64 NoBase64 texts error)
      levels :=
  fun within => (Decoder.decides_string.list within).bind fun _ =>
    settles_mapM fun text _ => settles_decodeBytes text

/-! ## Payloads -/

theorem decodeItems_eq_mapM
    (items : List Draft) :
    decodeItems levels items = items.mapM (decode levels) := by
  induction items with
  | nil => rfl
  | cons item items ih =>
      rw [decodeItems, ih, List.mapM_cons]

/-- The items of a list are read as an array. -/
theorem decodePayload_list :
    decodePayload levels "L" payload = do return list (← Decoder.list decode levels payload) := by
  cases payload with
  | array items closed =>
      rw [decodePayload, Decoder.list, ← decodeItems_eq_mapM]
      by_cases opened : levels ≤ 1
      · rw [if_pos opened, if_pos opened]
        rfl
      · rw [if_neg opened, if_neg opened, bind_assoc]
        cases closed <;> rfl
  | _ => rfl

/-- The members of a map are read as an object. -/
theorem decodePayload_map :
    decodePayload levels "M" payload = do return map (← Decoder.names decode levels payload) := by
  cases payload with
  | object members closed =>
      rw [decodePayload, Decoder.names,
        Item.mapM_eq_decodeMembers (fun _ => rfl) fun _ _ => rfl]
      by_cases opened : levels ≤ 1
      · rw [if_pos opened, if_pos opened]
        rfl
      · rw [if_neg opened, if_neg opened, bind_assoc]
        cases closed <;> rfl
  | _ => rfl

/-- A payload that a decoder of its own reads is settled as this decoder is. -/
theorem settles_of_content
    {α : Type}
    {attempt : Except DecodeError α}
    {right : α → Prop}
    {found : DecodeError → Prop}
    {make : α → AttributeValue}
    {kind : Kind}
    (settled : Settles attempt right found)
    (read : decodePayload levels kind.name payload = do return make (← attempt))
    (holds : ∀ {content}, right content → Holds kind payload (make content))
    (held :
      ∀ {value}, Holds kind payload value → ∃ content, right content ∧ make content = value)
    (problem : ∀ {error}, PayloadProblem kind payload error ↔ found error) :
    Settles (decodePayload levels kind.name payload) (Holds kind payload)
      (PayloadProblem kind payload) := by
  rw [read]
  refine (settled.map make).congr (fun value => ⟨?_, held⟩) fun error => problem.symm
  rintro ⟨content, isRight, rfl⟩
  exact holds isRight

/-- What stands under the name of a kind is settled. -/
theorem settles_payload
    (within : payload.Within levels)
    (inside : Decoder.Decides decode Denotes FirstProblem (levels - 1))
    (kind : Kind) :
    Settles (decodePayload levels kind.name payload) (Holds kind payload)
      (PayloadProblem kind payload) := by
  have text := Decoder.decides_string within
  have texts := Decoder.decides_string.list within
  have bool := Decoder.decides_bool within
  cases kind with
  | string | number =>
      refine settles_of_content text (by rw [Kind.name, decodePayload]) ?_ ?_ ⟨?_, ?_⟩
      · intro content fits
        constructor
        exact fits
      · rintro value ⟨⟩
        exact ⟨_, ‹_›, rfl⟩
      · rintro ⟨⟩
        assumption
      · intro problem
        constructor
        exact problem
  | stringSet | numberSet =>
      refine settles_of_content texts (by rw [Kind.name, decodePayload]) ?_ ?_ ⟨?_, ?_⟩
      · intro content fits
        constructor
        exact fits
      · rintro value ⟨⟩
        exact ⟨_, ‹_›, rfl⟩
      · rintro ⟨⟩
        assumption
      · intro problem
        constructor
        exact problem
  | bool | null =>
      refine settles_of_content bool (by rw [Kind.name, decodePayload]) ?_ ?_ ⟨?_, ?_⟩
      · intro content fits
        constructor
        exact fits
      · rintro value ⟨⟩
        exact ⟨_, ‹_›, rfl⟩
      · rintro ⟨⟩
        assumption
      · intro problem
        constructor
        exact problem
  | binary =>
      refine settles_of_content (decides_binary within) (by rw [Kind.name, decodePayload]) ?_ ?_ ?_
      · rintro bytes ⟨text, content, valid⟩
        exact .binary content valid
      · intro value holds
        cases holds with
        | binary content valid => exact ⟨_, ⟨_, content, valid⟩, rfl⟩
      · intro error
        constructor
        · intro problem
          cases problem with
          | binary problem => exact .inl problem
          | base64 content problem => exact .inr ⟨_, content, problem⟩
        · rintro (problem | ⟨text, content, problem⟩)
          · exact .binary problem
          · exact .base64 content problem
  | binarySet =>
      refine settles_of_content (decides_binaries within) (by rw [Kind.name, decodePayload])
        ?_ ?_ ?_
      · rintro members ⟨texts, content, valid⟩
        exact .binarySet content valid
      · intro value holds
        cases holds with
        | binarySet content valid => exact ⟨_, ⟨_, content, valid⟩, rfl⟩
      · intro error
        constructor
        · intro problem
          cases problem with
          | binarySet problem => exact .inl problem
          | base64Set content problem => exact .inr ⟨_, content, problem⟩
        · rintro (problem | ⟨texts, content, problem⟩)
          · exact .binarySet problem
          · exact .base64Set content problem
  | list =>
      refine settles_of_content (inside.list within) decodePayload_list .list ?_ ⟨?_, .list⟩
      · rintro value ⟨⟩
        exact ⟨_, ‹_›, rfl⟩
      · rintro ⟨⟩
        assumption
  | map =>
      refine settles_of_content (inside.names within) decodePayload_map .map ?_ ⟨?_, .map⟩
      · rintro value ⟨⟩
        exact ⟨_, ‹_›, rfl⟩
      · rintro ⟨⟩
        assumption

theorem decodePayload_unknown
    {name : String}
    (unknown : ∀ kind : Kind, kind.name ≠ name) :
    decodePayload levels name payload = .error (.unknownKind name) := by
  rw [decodePayload.eq_def]
  split
  next => exact absurd rfl (unknown .string)
  next => exact absurd rfl (unknown .number)
  next => exact absurd rfl (unknown .binary)
  next => exact absurd rfl (unknown .stringSet)
  next => exact absurd rfl (unknown .numberSet)
  next => exact absurd rfl (unknown .binarySet)
  next => exact absurd rfl (unknown .bool)
  next => exact absurd rfl (unknown .null)
  next => exact absurd rfl (unknown .list)
  next => exact absurd rfl (unknown .map)
  next => rfl

end Payloads

/-! ## Documents -/

theorem Kind.name_injective : Kind.name.Injective := by
  intro kind other same
  cases kind <;> cases other <;> simp [Kind.name] at same ⊢

section Members

variable
  {name : String}
  {kind : Kind}
  {payload : Draft}
  {others : List (Option String × Draft)}
  {error : DecodeError}

/-- A document stands for a value if it has one member and this holds the value. -/
theorem denotes_cons_iff
    {value : AttributeValue} :
    Denotes (.object ((some kind.name, payload) :: others) true) value ↔
      Holds kind payload value ∧ others = [] := by
  constructor
  · intro denoted
    cases denoted with
    | intro named holds =>
        cases Kind.name_injective named
        exact ⟨holds, rfl⟩
  · rintro ⟨holds, rfl⟩
    exact .intro rfl holds

/-- With the name of a kind in front, a problem is one of the payload or comes behind it. -/
theorem firstProblem_cons_iff :
    FirstProblem (.object ((some kind.name, payload) :: others) true) error ↔
      PayloadProblem kind payload error ∨
        ∃ value, Holds kind payload value ∧ Surplus others error := by
  constructor
  · intro found
    cases found with
    | noObject other => exact absurd rfl (other _ _)
    | unknownKind unknown => exact absurd rfl (unknown kind)
    | payload named problem =>
        cases Kind.name_injective named
        exact .inl problem
    | surplus named right problem =>
        cases Kind.name_injective named
        exact .inr ⟨_, right, problem⟩
  · rintro (problem | ⟨value, right, problem⟩)
    · exact .payload rfl problem
    · exact .surplus rfl right problem

theorem firstProblem_empty_iff :
    FirstProblem (.object [] true) error ↔ error = .notOneKind := by
  constructor
  · intro found
    cases found with
    | noObject other => exact absurd rfl (other _ _)
    | noKind => rfl
  · rintro rfl
    exact .noKind

theorem firstProblem_unreadable_iff :
    FirstProblem (.object ((none, payload) :: others) true) error ↔ error = .malformed := by
  constructor
  · intro found
    cases found with
    | noObject other => exact absurd rfl (other _ _)
    | unreadable => rfl
  · rintro rfl
    exact .unreadable

theorem firstProblem_unknown_iff
    (unknown : ∀ kind : Kind, kind.name ≠ name) :
    FirstProblem (.object ((some name, payload) :: others) true) error ↔
      error = .unknownKind name := by
  constructor
  · intro found
    cases found with
    | noObject other => exact absurd rfl (other _ _)
    | unknownKind => rfl
    | payload named => exact absurd named (unknown _)
    | surplus named => exact absurd named (unknown _)
  · rintro rfl
    exact .unknownKind unknown

end Members

theorem firstProblem_noObject_iff
    {document : Draft}
    {error : DecodeError}
    (other : ∀ members closed, document ≠ .object members closed) :
    FirstProblem document error ↔ error = document.problem := by
  constructor
  · intro found
    cases found with
    | noObject => rfl
    | _ => exact absurd rfl (other _ _)
  · rintro rfl
    exact .noObject other

/-- Behind a payload that is right there must be nothing. -/
theorem settles_surplus
    {others : List (Option String × Draft)}
    (value : AttributeValue) :
    Settles
      (match others with
      | [] => if true then pure value else .error .malformed
      | (some _, _) :: _ => .error .notOneKind
      | (none, _) :: _ => .error .malformed)
      (fun result => value = result ∧ others = []) (Surplus others) := by
  rcases others with _ | ⟨⟨_ | name, document⟩, others⟩
  · refine ⟨fun result => ?_, fun error => ⟨nofun, nofun⟩⟩
    simp [pure, Except.pure]
  · refine settles_of_error rfl (by simp) fun error => ⟨?_, ?_⟩
    · rintro ⟨⟩
      rfl
    · rintro rfl
      exact .unreadable
  · refine settles_of_error rfl (by simp) fun error => ⟨?_, ?_⟩
    · rintro ⟨⟩
      rfl
    · rintro rfl
      exact .anotherKind

/-- A document is settled by its first member, with what stands behind it. -/
theorem settles_members
    {levels : Nat}
    {name : String}
    {payload : Draft}
    {others : List (Option String × Draft)}
    (opened : ¬levels ≤ 1)
    (settled : ∀ kind : Kind,
      Settles (decodePayload (levels - 1) kind.name payload) (Holds kind payload)
        (PayloadProblem kind payload)) :
    Settles (decode levels (.object ((some name, payload) :: others) true))
      (Denotes (.object ((some name, payload) :: others) true))
      (FirstProblem (.object ((some name, payload) :: others) true)) := by
  rw [decode, if_neg opened]
  by_cases known : ∃ kind : Kind, kind.name = name
  · rcases known with ⟨kind, rfl⟩
    have surplus := @settles_surplus others
    refine ((settled kind).bind surplus).congr (fun value => ?_) fun error => ?_
    · simp [denotes_cons_iff]
    · exact firstProblem_cons_iff.symm
  · have unknown : ∀ kind : Kind, kind.name ≠ name := not_exists.mp known
    rw [decodePayload_unknown unknown]
    refine settles_of_error rfl (fun value denoted => ?_) fun error =>
      firstProblem_unknown_iff unknown
    cases denoted with
    | intro named => exact unknown _ named

/-- The decoder decides the format. -/
theorem decides_decode (levels : Nat) : Decoder.Decides decode Denotes FirstProblem levels := by
  -- A value inside a list or a map lies two levels further in than the list or map.
  induction levels using Nat.strongRecOn with
  | _ levels ih =>
      intro document within
      cases document with
      | object members closed =>
          rcases Draft.within_object_iff.mp within with ⟨rfl, opened, inside⟩
          rcases members with _ | ⟨⟨_ | name, payload⟩, others⟩
          · rw [decode, if_neg opened]
            exact settles_of_error rfl (by rintro value ⟨⟩) fun error => firstProblem_empty_iff
          · rw [decode, if_neg opened]
            exact settles_of_error rfl (by rintro value ⟨⟩) fun error =>
              firstProblem_unreadable_iff
          · apply settles_members opened
            apply settles_payload (inside _ List.mem_cons_self)
            exact ih (levels - 1 - 1) (by omega)
      | _ =>
          apply settles_of_error rfl
          · rintro value ⟨⟩
          · intro error
            apply firstProblem_noObject_iff
            rintro members closed ⟨⟩

/-- A text that is read to its end and nested within the limit is read as a value just if
its document has the format, and as the value that it stands for; if not, the document's
first problem is reported.  So it is with a document in memory. -/
theorem decode_accepts_exactly :
    (∀ text document,
      Draft.read text = (document, true) → document.depth < depthLimit →
        Settles (Decoder.ofText decode text) (Denotes document) (FirstProblem document)) ∧
      ∀ document : Json,
        document.depth < depthLimit →
          Settles (Decoder.ofJson decode document) (Denotes (.ofJson document))
            (FirstProblem (.ofJson document)) := by
  constructor
  · intro text document read shallow
    have settled := decides_decode depthLimit ⟨Draft.isWhole_of_read read, shallow⟩
    rw [Decoder.ofText, read]
    simpa using settled
  · intro document shallow
    exact decides_decode depthLimit (Draft.within_ofJson document shallow)

/-- A map with two members of one name. -/
def doubled : Json :=
  .object [("M", .object
    [("a", .object [("S", .string "x")]), ("a", .object [("NULL", .bool true)])])]

/-- A list whose second item has an unknown kind, with a known one behind it. -/
def crooked : Json :=
  .object [("L", .array
    [.object [("N", .string "1")], .object [("Q", .null), ("S", .string "x")], .null])]

/-- A set of binaries whose first member is no base64 and whose second is no text. -/
def mixed : Json :=
  .object [("BS", .array [.string "!!!", .null])]

/-- Of two members with one name the last is read, the first unknown kind is reported,
and of a set of binaries the member that is no text. -/
theorem decode_doubled_and_crooked :
    doubled.depth < depthLimit ∧
      (Draft.ofJson crooked).depth < depthLimit ∧
      (Draft.ofJson mixed).depth < depthLimit ∧
      Decoder.ofJson decode doubled = .ok (.map (.ofList [("a", .null true)])) ∧
      Decoder.ofText decode crooked.render = .error (.unknownKind "Q") ∧
      Decoder.ofText decode mixed.render = .error .wrongKind := by
  have within : doubled.depth < depthLimit := by decide
  have crookedWithin : (Draft.ofJson crooked).depth < depthLimit := by decide
  have mixedWithin : (Draft.ofJson mixed).depth < depthLimit := by decide
  have lastCounts :
      NameMap.ofList [("a", string "x"), ("a", null true)] = .ofList [("a", null true)] := rfl
  have denoted : Denotes (.ofJson doubled) (.map (.ofList [("a", .null true)])) := by
    rw [← lastCounts]
    refine .intro rfl (.map (.intro (.cons (.intro ?_) (.cons (.intro ?_) .nil))
      (NameMap.find?_ofList_eq _)))
    · exact .intro rfl (.string rfl)
    · exact .intro rfl (.null rfl)
  have unknown : ∀ kind : Kind, kind.name ≠ "Q" := by
    intro kind
    cases kind <;> decide
  have earlier : Denotes (.ofJson (.object [("N", .string "1")])) (.number "1") :=
    .intro rfl (.number rfl)
  have problem : FirstProblem (.ofJson crooked) (.unknownKind "Q") :=
    .payload rfl (.list (.item (.behind earlier (.here (.unknownKind unknown)))))
  have noText : FirstProblem (.ofJson mixed) .wrongKind :=
    .payload rfl (.binarySet (.item (.behind rfl (.here ⟨nofun, rfl⟩))))
  have numberless : Numberless crooked := by
    refine .object (List.forall_mem_singleton.mpr (.array ?_))
    simp only [List.forall_mem_cons]
    refine ⟨.object (List.forall_mem_singleton.mpr (.string "1")), .object ?_, .null, nofun⟩
    simp only [List.forall_mem_cons]
    exact ⟨.null, .string "x", nofun⟩
  have mixedNumberless : Numberless mixed := by
    refine .object (List.forall_mem_singleton.mpr (.array ?_))
    simp only [List.forall_mem_cons]
    exact ⟨.string "!!!", .null, nofun⟩
  have crookedSettled := decode_accepts_exactly.1 _ _ (read_render numberless) crookedWithin
  have mixedSettled := decode_accepts_exactly.1 _ _ (read_render mixedNumberless) mixedWithin
  exact ⟨within, crookedWithin, mixedWithin,
    ((decode_accepts_exactly.2 _ within).ok _).mpr denoted,
    (crookedSettled.error _).mpr problem, (mixedSettled.error _).mpr noText⟩

/-- A value with a second name that is half a surrogate pair. -/
def halfPaired : String :=
  "\x7b\"S\": \"a\", \"\\ud800\": 1\x7d"

/-- A set of binaries whose one member is no base64. -/
def crookedSet : String :=
  "\x7b\"BS\": [\"!!!\"]\x7d"

/-- The same set with a second member, which is a number. -/
def mixedSet : String :=
  "\x7b\"BS\": [\"!!!\", 5]\x7d"

/-- Problems are not reported quite in the order in which they stand in a text.  A second
name counts only if it can be read, and a member that is no base64 only if all members of
its set are texts. -/
theorem decode_out_of_reading_order :
    (Draft.read halfPaired).2 ∧ (Draft.read mixedSet).2 ∧
      Decoder.ofText decode halfPaired = .error .malformed ∧
      Decoder.ofText decode crookedSet = .error .notBase64 ∧
      Decoder.ofText decode mixedSet = .error .wrongKind := by
  decide +kernel

end ItemTable.AttributeValue
