import ItemTable.Proofs.Json.Nesting
import ItemTable.Proofs.NameMap
import ItemTable.Proofs.Sequencing

/-!
# What decoders accept and report

Which documents a decoder accepts is a relation between documents and values, and what
it reports of the others a relation between documents and errors.  A decoder decides both
relations when it follows them on every well-formed document that is not nested too
deeply.  Decoders of arrays and objects decide what is said of their parts, in reading
order.
-/

namespace ItemTable.Json

/-! ## Attempts -/

/-- The attempt succeeds with just the values that are right and fails with just the
errors that are found. -/
structure Settles
    {α : Type}
    (attempt : Except DecodeError α)
    (right : α → Prop)
    (found : DecodeError → Prop) :
    Prop where
  ok : ∀ value, attempt = .ok value ↔ right value
  error : ∀ error, attempt = .error error ↔ found error

/-- What stands first among the items that is not right. -/
inductive FirstAmong
    {δ α : Type}
    (right : δ → α → Prop)
    (problem : δ → DecodeError → Prop) :
    List δ → DecodeError → Prop where
  | here
      {item : δ}
      {items : List δ}
      {error : DecodeError}
      (found : problem item error) :
      FirstAmong right problem (item :: items) error
  | behind
      {item : δ}
      {items : List δ}
      {value : α}
      {error : DecodeError}
      (earlier : right item value)
      (later : FirstAmong right problem items error) :
      FirstAmong right problem (item :: items) error

section Attempts

variable
  {δ α β : Type}

/-- An attempt that fails settles that nothing is right. -/
theorem settles_of_error
    {attempt : Except DecodeError α}
    {right : α → Prop}
    {found : DecodeError → Prop}
    {cause : DecodeError}
    (failed : attempt = .error cause)
    (none : ∀ value, ¬right value)
    (only : ∀ error, found error ↔ error = cause) :
    Settles attempt right found := by
  refine ⟨fun value => ?_, fun error => ?_⟩
  · simp only [failed, reduceCtorEq, none]
  · rw [failed, only, Except.error.injEq, eq_comm]

theorem Settles.congr
    {attempt : Except DecodeError α}
    {right other : α → Prop}
    {found reported : DecodeError → Prop}
    (settled : Settles attempt right found)
    (sameRight : ∀ value, right value ↔ other value)
    (sameFound : ∀ error, found error ↔ reported error) :
    Settles attempt other reported where
  ok value := (settled.ok value).trans (sameRight value)
  error error := (settled.error error).trans (sameFound error)

/-- The second of two attempts counts where the first one succeeds. -/
theorem Settles.bind
    {first : Except DecodeError α}
    {next : α → Except DecodeError β}
    {right : α → Prop}
    {found : DecodeError → Prop}
    {rightNext : α → β → Prop}
    {foundNext : α → DecodeError → Prop}
    (settled : Settles first right found)
    (settledNext : ∀ value, Settles (next value) (rightNext value) (foundNext value)) :
    Settles (first >>= next)
      (fun result => ∃ value, right value ∧ rightNext value result)
      (fun error => found error ∨ ∃ value, right value ∧ foundNext value error) where
  ok result := by simp only [bind_eq_ok, settled.ok, (settledNext _).ok]
  error error := by
    simp only [bind_eq_error, settled.ok, settled.error, (settledNext _).error]

/-- Something made of a value needs the value alone. -/
theorem Settles.map
    {attempt : Except DecodeError α}
    {right : α → Prop}
    {found : DecodeError → Prop}
    (settled : Settles attempt right found)
    (make : α → β) :
    Settles (do return make (← attempt))
      (fun result => ∃ value, right value ∧ make value = result) found where
  ok result := by
    simp only [bind_eq_ok, settled.ok]
    simp [pure, Except.pure]
  error error := by
    simp only [bind_eq_error, settled.error]
    simp [pure, Except.pure]

theorem firstAmong_nil_iff
    {right : δ → α → Prop}
    {problem : δ → DecodeError → Prop}
    {error : DecodeError} :
    FirstAmong right problem [] error ↔ False :=
  ⟨nofun, nofun⟩

theorem firstAmong_cons_iff
    {right : δ → α → Prop}
    {problem : δ → DecodeError → Prop}
    {item : δ}
    {items : List δ}
    {error : DecodeError} :
    FirstAmong right problem (item :: items) error ↔
      problem item error ∨
        ∃ value, right item value ∧ FirstAmong right problem items error := by
  constructor
  · rintro (found | ⟨earlier, later⟩)
    · exact .inl found
    · exact .inr ⟨_, earlier, later⟩
  · rintro (found | ⟨value, earlier, later⟩)
    · exact .here found
    · exact .behind earlier later

/-- Items taken one after the other are settled if each of them is. -/
theorem settles_mapM
    {step : δ → Except DecodeError α}
    {right : δ → α → Prop}
    {problem : δ → DecodeError → Prop}
    {items : List δ}
    (each : ∀ item ∈ items, Settles (step item) (right item) (problem item)) :
    Settles (items.mapM step) (List.Forall₂ right items) (FirstAmong right problem items) := by
  induction items with
  | nil =>
      refine ⟨fun values => ?_, fun error => ?_⟩
      · rw [List.mapM_nil, List.forall₂_nil_left_iff, eq_comm]
        exact ⟨Except.ok.inj, congrArg Except.ok⟩
      · rw [firstAmong_nil_iff]
        exact ⟨nofun, nofun⟩
  | cons item items ih =>
      rcases List.forall_mem_cons.mp each with ⟨here, behind⟩
      rw [List.mapM_cons]
      refine ⟨fun values => ?_, fun error => ?_⟩
      · rw [List.forall₂_cons_left_iff]
        simp only [bind_eq_ok, here.ok, (ih behind).ok]
        constructor
        · rintro ⟨value, first, others, each, ⟨⟩⟩
          exact ⟨value, others, first, each, rfl⟩
        · rintro ⟨value, others, first, each, rfl⟩
          exact ⟨value, first, others, each, rfl⟩
      · rw [firstAmong_cons_iff]
        simp only [bind_eq_error, here.ok, here.error, (ih behind).error]
        simp [pure, Except.pure]

end Attempts

/-! ## Nested drafts -/

namespace Draft

mutual

/-- How many arrays and objects of a draft stand inside each other. -/
def depth : Draft → Nat
  | array items _ => itemsDepth items + 1
  | object members _ => membersDepth members + 1
  | _ => 0

/-- The depth of the deepest item. -/
def itemsDepth : List Draft → Nat
  | [] => 0
  | item :: items => max (depth item) (itemsDepth items)

/-- The depth of the deepest member. -/
def membersDepth : List (Option String × Draft) → Nat
  | [] => 0
  | (_, value) :: members => max (depth value) (membersDepth members)

end

/-- The draft is well formed and opens fewer levels. -/
structure Within (levels : Nat) (draft : Draft) : Prop where
  whole : draft.isWhole
  shallow : draft.depth < levels

section Levels

variable
  {levels : Nat}
  {closed : Bool}

theorem areWhole_and_itemsDepth_lt_iff
    (positive : 0 < levels)
    (items : List Draft) :
    areWhole items ∧ itemsDepth items < levels ↔ ∀ item ∈ items, item.Within levels := by
  induction items with
  | nil => simpa [areWhole, itemsDepth] using positive
  | cons item items ih =>
      rw [List.forall_mem_cons, ← ih, areWhole, itemsDepth, Bool.and_eq_true, Nat.max_lt]
      constructor
      · rintro ⟨⟨here, behind⟩, shallow, others⟩
        exact ⟨⟨here, shallow⟩, behind, others⟩
      · rintro ⟨⟨here, shallow⟩, behind, others⟩
        exact ⟨⟨here, behind⟩, shallow, others⟩

theorem haveWhole_eq (members : List (Option String × Draft)) :
    haveWhole members = areWhole (members.map Prod.snd) := by
  induction members with
  | nil => rfl
  | cons member members ih => rw [haveWhole, ih, List.map_cons, areWhole]

theorem membersDepth_eq (members : List (Option String × Draft)) :
    membersDepth members = itemsDepth (members.map Prod.snd) := by
  induction members with
  | nil => rfl
  | cons member members ih => rw [membersDepth, ih, List.map_cons, itemsDepth]

/-- An array needs one more level than its items. -/
theorem within_array_iff
    {items : List Draft} :
    (array items closed).Within levels ↔
      closed ∧ ¬levels ≤ 1 ∧ ∀ item ∈ items, item.Within (levels - 1) := by
  constructor
  · rintro ⟨whole, shallow⟩
    rw [isWhole, Bool.and_eq_true] at whole
    rw [depth] at shallow
    exact ⟨whole.2, by omega,
      (areWhole_and_itemsDepth_lt_iff (by omega) items).mp ⟨whole.1, by omega⟩⟩
  · rintro ⟨ended, opened, each⟩
    rcases (areWhole_and_itemsDepth_lt_iff (by omega) items).mpr each with ⟨whole, shallow⟩
    refine ⟨?_, ?_⟩
    · rw [isWhole, whole, ended]
      rfl
    · rw [depth]
      omega

/-- An object needs one more level than its members. -/
theorem within_object_iff
    {members : List (Option String × Draft)} :
    (object members closed).Within levels ↔
      closed ∧ ¬levels ≤ 1 ∧ ∀ member ∈ members, member.2.Within (levels - 1) := by
  have items :
      (array (members.map Prod.snd) closed).Within levels ↔ _ := within_array_iff
  rw [List.forall_mem_map] at items
  rw [← items]
  constructor
  · rintro ⟨whole, shallow⟩
    exact ⟨by rwa [isWhole, haveWhole_eq] at whole, by rwa [depth, membersDepth_eq] at shallow⟩
  · rintro ⟨whole, shallow⟩
    exact ⟨by rwa [isWhole, haveWhole_eq], by rwa [depth, membersDepth_eq]⟩

end Levels

mutual

/-- The draft of a document is well formed and nested as the document is. -/
theorem within_ofJson
    {levels : Nat} :
    ∀ document : Json, document.depth < levels → (ofJson document).Within levels
  | .array items, shallow => by
      rcases depth_array_lt.mp shallow with ⟨opened, each⟩
      exact within_array_iff.mpr ⟨rfl, opened, within_ofItems items each⟩
  | .object members, shallow => by
      rcases depth_object_lt.mp shallow with ⟨opened, each⟩
      exact within_object_iff.mpr ⟨rfl, opened, within_ofMembers members each⟩
  | .null, shallow => ⟨rfl, shallow⟩
  | .bool _, shallow => ⟨rfl, shallow⟩
  | .number _, shallow => ⟨rfl, shallow⟩
  | .string _, shallow => ⟨rfl, shallow⟩

theorem within_ofItems
    {levels : Nat} :
    ∀ items : List Json,
      (∀ item ∈ items, item.depth < levels) → ∀ draft ∈ ofItems items, draft.Within levels
  | [], _ => nofun
  | item :: items, each => by
      rcases List.forall_mem_cons.mp each with ⟨here, behind⟩
      exact List.forall_mem_cons.mpr ⟨within_ofJson item here, within_ofItems items behind⟩

theorem within_ofMembers
    {levels : Nat} :
    ∀ members : List (String × Json),
      (∀ member ∈ members, member.2.depth < levels) →
        ∀ draft ∈ ofMembers members, draft.2.Within levels
  | [], _ => nofun
  | (_, value) :: members, each => by
      rcases List.forall_mem_cons.mp each with ⟨here, behind⟩
      exact List.forall_mem_cons.mpr ⟨within_ofJson value here, within_ofMembers members behind⟩

end

end Draft

/-! ## Documents -/

/-- A quoted text that can be read. -/
def Draft.text (content : String) : Draft :=
  .quoted (some content)

/-- The document is what is written for the content. -/
def Fits {α : Type} (write : α → Draft) (document : Draft) (content : α) : Prop :=
  document = write content

/-- The document is nothing that is written for a content. -/
structure Misfits
    {α : Type}
    (write : α → Draft)
    (document : Draft)
    (error : DecodeError) :
    Prop where
  other : ∀ content, document ≠ write content
  reported : error = document.problem

/-- The document is an array, and its items are right for the values. -/
inductive IsArray {α : Type} (right : Draft → α → Prop) : Draft → List α → Prop where
  | intro
      {items : List Draft}
      {values : List α}
      (each : List.Forall₂ right items values) :
      IsArray right (.array items true) values

/-- The document is no array, or it is one whose first item that is not right has the
problem. -/
inductive NoArray
    {α : Type}
    (right : Draft → α → Prop)
    (problem : Draft → DecodeError → Prop) :
    Draft → DecodeError → Prop where
  | other
      {document : Draft}
      (other : ∀ items closed, document ≠ .array items closed) :
      NoArray right problem document document.problem
  | item
      {items : List Draft}
      {error : DecodeError}
      (first : FirstAmong right problem items error) :
      NoArray right problem (.array items true) error

/-- The member has the name of the entry, and its value is right. -/
inductive IsEntry
    {α : Type}
    (right : Draft → α → Prop) :
    Option String × Draft → String × α → Prop where
  | intro
      {name : String}
      {document : Draft}
      {value : α}
      (here : right document value) :
      IsEntry right (some name, document) (name, value)

/-- The name of the member cannot be read, or its value has the problem. -/
inductive NoEntry
    (problem : Draft → DecodeError → Prop) :
    Option String × Draft → DecodeError → Prop where
  | unreadable {document : Draft} : NoEntry problem (none, document) .malformed
  | value
      {name : String}
      {document : Draft}
      {error : DecodeError}
      (here : problem document error) :
      NoEntry problem (some name, document) error

/-- The document is an object with the entries.  Of members with one name the last
counts, but all have to be right. -/
inductive IsObject {α : Type} (right : Draft → α → Prop) : Draft → NameMap α → Prop where
  | intro
      {members : List (Option String × Draft)}
      {entries : List (String × α)}
      {fields : NameMap α}
      (each : List.Forall₂ (IsEntry right) members entries)
      (last : ∀ name, fields.find? name = entries.reverse.lookup name) :
      IsObject right (.object members true) fields

/-- The document is no object, or it is one whose first member that is not right has the
problem. -/
inductive NoObject
    {α : Type}
    (right : Draft → α → Prop)
    (problem : Draft → DecodeError → Prop) :
    Draft → DecodeError → Prop where
  | other
      {document : Draft}
      (other : ∀ members closed, document ≠ .object members closed) :
      NoObject right problem document document.problem
  | member
      {members : List (Option String × Draft)}
      {error : DecodeError}
      (first : FirstAmong (IsEntry right) (NoEntry problem) members error) :
      NoObject right problem (.object members true) error

section Others

variable
  {α : Type}
  {right : Draft → α → Prop}
  {problem : Draft → DecodeError → Prop}
  {document : Draft}
  {error : DecodeError}

theorem noArray_iff_of_other
    (other : ∀ items closed, document ≠ .array items closed) :
    NoArray right problem document error ↔ error = document.problem := by
  constructor
  · rintro (_ | _)
    · rfl
    · exact absurd rfl (other _ _)
  · rintro rfl
    exact .other other

theorem noObject_iff_of_other
    (other : ∀ members closed, document ≠ .object members closed) :
    NoObject right problem document error ↔ error = document.problem := by
  constructor
  · rintro (_ | _)
    · rfl
    · exact absurd rfl (other _ _)
  · rintro rfl
    exact .other other

end Others

/-! ## Decoders -/

/-- Of the well-formed documents that open fewer levels, the decoder accepts those that
are right and reports the problem of the others. -/
def Decoder.Decides
    {α : Type}
    (decoder : Decoder α)
    (right : Draft → α → Prop)
    (problem : Draft → DecodeError → Prop)
    (levels : Nat) :
    Prop :=
  ∀ {document : Draft},
    document.Within levels →
      Settles (decoder levels document) (right document) (problem document)

namespace Decoder

variable
  {α : Type}
  {member : Decoder α}
  {right : Draft → α → Prop}
  {problem : Draft → DecodeError → Prop}
  {levels : Nat}

/-- What reads just what is written for a content, and says of all else what it is,
decides that. -/
theorem decides_written
    {decoder : Decoder α}
    {write : α → Draft}
    (injective : write.Injective)
    (reads : ∀ content, decoder levels (write content) = .ok content)
    (others : ∀ document,
      (∀ content, document ≠ write content) → decoder levels document = .error document.problem) :
    decoder.Decides (Fits write) (Misfits write) levels := by
  intro document _
  by_cases written : ∃ content, document = write content
  · rcases written with ⟨content, rfl⟩
    rw [reads]
    refine ⟨fun value => ?_, fun error => ⟨nofun, fun misfit => ?_⟩⟩
    · rw [Fits, injective.eq_iff, Except.ok.injEq]
    · exact absurd rfl (misfit.other content)
  · have other : ∀ content, document ≠ write content := not_exists.mp written
    refine settles_of_error (others document other) other fun error => ?_
    exact ⟨Misfits.reported, fun same => ⟨other, same⟩⟩

theorem decides_string : string.Decides (Fits .text) (Misfits .text) levels := by
  refine decides_written ?_ (fun _ => rfl) fun document other => ?_
  · rintro content _ ⟨⟩
    rfl
  · rw [string.eq_def]
    split
    next content => exact absurd rfl (other content)
    next => rfl

theorem decides_bool : bool.Decides (Fits .bool) (Misfits .bool) levels := by
  refine decides_written ?_ (fun _ => rfl) fun document other => ?_
  · rintro value _ ⟨⟩
    rfl
  · rw [bool.eq_def]
    split
    next value => exact absurd rfl (other value)
    next => rfl

/-- An array is decided by its items. -/
theorem Decides.list
    (each : member.Decides right problem (levels - 1)) :
    (list member).Decides (IsArray right) (NoArray right problem) levels := by
  intro document within
  cases document with
  | array items closed =>
      rcases Draft.within_array_iff.mp within with ⟨rfl, opened, inside⟩
      simp only [Decoder.list, if_neg opened, if_true]
      have settled := settles_mapM fun item there => each (inside item there)
      refine (settled.map id).congr (fun values => ?_) fun error => ?_
      · constructor
        · rintro ⟨values, each, rfl⟩
          exact .intro each
        · rintro ⟨each⟩
          exact ⟨values, each, rfl⟩
      · constructor
        · exact .item
        · rintro (other | first)
          · exact absurd rfl (other _ _)
          · exact first
  | _ => exact settles_of_error rfl nofun fun error => noArray_iff_of_other nofun

/-- Members are decided by their values, as far as their names can be read. -/
theorem Decides.entries
    (decides : member.Decides right problem levels)
    {read : Option String × Draft → Except DecodeError (String × α)}
    (unreadable : ∀ document, read (none, document) = .error .malformed)
    (named : ∀ name document,
      read (some name, document) = do return (name, ← member levels document))
    {members : List (Option String × Draft)}
    (inside : ∀ entry ∈ members, entry.2.Within levels) :
    Settles (members.mapM read) (List.Forall₂ (IsEntry right) members)
      (FirstAmong (IsEntry right) (NoEntry problem) members) := by
  apply settles_mapM
  rintro ⟨_ | name, document⟩ there
  · refine settles_of_error (unreadable document) nofun fun error => ?_
    constructor
    · rintro ⟨⟩
      rfl
    · rintro rfl
      exact .unreadable
  · have settled := (decides (inside _ there)).map (Prod.mk name)
    rw [named]
    refine settled.congr (fun entry => ?_) fun error => ?_
    · constructor
      · rintro ⟨value, here, rfl⟩
        exact .intro here
      · rintro ⟨here⟩
        exact ⟨_, here, rfl⟩
    · constructor
      · exact .value
      · rintro (_ | here)
        exact here

/-- An object is decided by its members. -/
theorem Decides.names
    (each : member.Decides right problem (levels - 1)) :
    (names member).Decides (IsObject right) (NoObject right problem) levels := by
  intro document within
  cases document with
  | object members closed =>
      rcases Draft.within_object_iff.mp within with ⟨rfl, opened, inside⟩
      simp only [Decoder.names, if_neg opened, if_true]
      refine Settles.congr
        (Settles.map (each.entries (fun _ => rfl) (fun _ _ => rfl) inside) NameMap.ofList)
        (fun fields => ?_) fun error => ?_
      · constructor
        · rintro ⟨entries, each, rfl⟩
          exact .intro each (NameMap.find?_ofList_eq entries)
        · rintro ⟨each, last⟩
          refine ⟨_, each, NameMap.ext_find? fun name => ?_⟩
          rw [NameMap.find?_ofList_eq, last]
      · constructor
        · exact .member
        · rintro (other | first)
          · exact absurd rfl (other _ _)
          · exact first
  | _ => exact settles_of_error rfl nofun fun error => noObject_iff_of_other nofun

end Decoder

end ItemTable.Json
