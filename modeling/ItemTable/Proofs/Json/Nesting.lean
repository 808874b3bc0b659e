import ItemTable.Json.Record
import ItemTable.Proofs.Json.Text

/-!
# Nested documents

How deep a document is nested, and what it means that a decoder reads a document as a
value if it is not nested too deeply.
-/

namespace ItemTable.Json

/-! ## Depth -/

mutual

/-- How many arrays and objects of a document stand inside each other. -/
def depth : Json → Nat
  | array items => itemsDepth items + 1
  | object members => membersDepth members + 1
  | _ => 0

/-- The depth of the deepest item. -/
def itemsDepth : List Json → Nat
  | [] => 0
  | item :: items => max (depth item) (itemsDepth items)

/-- The depth of the deepest member. -/
def membersDepth : List (String × Json) → Nat
  | [] => 0
  | (_, value) :: members => max (depth value) (membersDepth members)

end

theorem membersDepth_eq (members : List (String × Json)) :
    membersDepth members = itemsDepth (members.map Prod.snd) := by
  induction members with
  | nil => rfl
  | cons member members ih => rw [membersDepth, ih, List.map_cons, itemsDepth]

theorem itemsDepth_lt
    {levels : Nat}
    (positive : 0 < levels)
    (items : List Json) :
    itemsDepth items < levels ↔ ∀ item ∈ items, item.depth < levels := by
  induction items with
  | nil => simpa [itemsDepth] using positive
  | cons item items ih => rw [itemsDepth, Nat.max_lt, ih, List.forall_mem_cons]

/-- An array needs one more level than its items. -/
theorem depth_array_lt
    {levels : Nat}
    {items : List Json} :
    (array items).depth < levels ↔
      ¬levels ≤ 1 ∧ ∀ item ∈ items, item.depth < levels - 1 := by
  rw [depth]
  constructor
  · intro within
    exact ⟨by omega, (itemsDepth_lt (by omega) items).mp (by omega)⟩
  · rintro ⟨opened, within⟩
    have inside := (itemsDepth_lt (by omega) items).mpr within
    omega

/-- An object needs one more level than its members. -/
theorem depth_object_lt
    {levels : Nat}
    {members : List (String × Json)} :
    (object members).depth < levels ↔
      ¬levels ≤ 1 ∧ ∀ member ∈ members, member.2.depth < levels - 1 := by
  rw [depth, membersDepth_eq, ← depth, depth_array_lt, List.forall_mem_map]

/-! ## Reading up to a depth -/

/-- A document without numbers is read from its text as it is read itself. -/
theorem Decoder.ofText_render
    {α : Type}
    (decoder : Decoder α)
    {document : Json}
    (numberless : Numberless document) :
    decoder.ofText document.render = decoder.ofJson document := by
  rw [ofText, read_render numberless, ofJson]
  simp

/-- The decoder reads the document as the value, unless it is nested too deeply. -/
def Decoder.Reads
    {α : Type}
    (decoder : Decoder α)
    (document : Json)
    (value : α) :
    Prop :=
  ∀ levels,
    decoder levels (.ofJson document) =
      if document.depth < levels then .ok value else .error .malformed

section Reads

variable
  {α : Type}
  {decoder : Decoder α}
  {document : Json}
  {value other : α}

/-- Within the levels that a reader has, the value is read from the document and from
its text. -/
theorem Decoder.Reads.ofJson_and_ofText
    (reads : decoder.Reads document value)
    (numberless : Numberless document)
    (within : document.depth < depthLimit) :
    decoder.ofJson document = .ok value ∧ decoder.ofText document.render = .ok value := by
  rw [ofText_render decoder numberless, and_self, ofJson, reads, if_pos within]

/-- With as many levels as the document needs, it is read as one value only. -/
theorem Decoder.Reads.unique
    (reads : decoder.Reads document value)
    (readsOther : decoder.Reads document other) :
    value = other := by
  have enough := Nat.lt_succ_self document.depth
  have same := (reads _).symm.trans (readsOther (document.depth + 1))
  rw [if_pos enough, if_pos enough] at same
  exact Except.ok.inj same

end Reads

end ItemTable.Json
