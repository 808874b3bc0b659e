import ItemTable.Json.Record

/-!
# Texts that hold a document

Of a draft from which nothing is missing nothing but the document is known, so a decoder
makes the same of a text as of the document that the text holds.
-/

namespace ItemTable.Json

namespace Draft

mutual

/-- A draft from which nothing is missing is the draft of its document. -/
theorem eq_ofJson_of_toJson?
    {document : Json} :
    ∀ draft : Draft, draft.toJson? = some document → draft = .ofJson document
  | .null, whole => by
      cases whole
      rfl
  | .bool value, whole => by
      cases whole
      rfl
  | .number (.integer value), whole => by
      cases whole
      rfl
  | .number (.real value), whole => by
      rw [toJson?] at whole
      split at whole
      · cases whole
        rfl
      · cases whole
  | .quoted content, whole => by
      cases content with
      | none => cases whole
      | some text =>
          cases whole
          rfl
  | .array items closed, whole => by
      rw [toJson?] at whole
      split at whole
      next isClosed =>
        rcases Option.map_eq_some_iff.mp whole with ⟨documents, each, rfl⟩
        rw [eq_ofItems_of_toItems? items each, ofJson, isClosed]
      next => cases whole
  | .object members closed, whole => by
      rw [toJson?] at whole
      split at whole
      next isClosed =>
        rcases Option.map_eq_some_iff.mp whole with ⟨documents, each, rfl⟩
        rw [eq_ofMembers_of_toMembers? members each, ofJson, isClosed]
      next => cases whole
  | .cut, whole => by cases whole

theorem eq_ofItems_of_toItems?
    {documents : List Json} :
    ∀ items : List Draft, toItems? items = some documents → items = ofItems documents
  | [], whole => by
      cases whole
      rfl
  | item :: items, whole => by
      rw [toItems?] at whole
      rcases Option.bind_eq_some_iff.mp whole with ⟨document, here, others⟩
      rcases Option.bind_eq_some_iff.mp others with ⟨documents, behind, same⟩
      cases same
      rw [ofItems, eq_ofJson_of_toJson? item here, eq_ofItems_of_toItems? items behind]

theorem eq_ofMembers_of_toMembers?
    {documents : List (String × Json)} :
    ∀ members : List (Option String × Draft),
      toMembers? members = some documents → members = ofMembers documents
  | [], whole => by
      cases whole
      rfl
  | (name, value) :: members, whole => by
      rw [toMembers?] at whole
      rcases Option.bind_eq_some_iff.mp whole with ⟨text, named, others⟩
      rcases Option.bind_eq_some_iff.mp others with ⟨document, here, others⟩
      rcases Option.bind_eq_some_iff.mp others with ⟨documents, behind, same⟩
      cases same
      rw [ofMembers, named, eq_ofJson_of_toJson? value here,
        eq_ofMembers_of_toMembers? members behind]

end

/-! ## Texts that are read to their end -/

/-- What is read with this fuel up to its end is well formed. -/
structure ReadsWhole (fuel : Nat) : Prop where
  value :
    ∀ {text : List Char} {draft : Draft} {rest : List Char},
      readValue fuel text = (draft, some rest) → draft.isWhole
  items :
    ∀ {text : List Char} {items : List Draft} {rest : List Char},
      readItems fuel text = (items, some rest) → areWhole items
  members :
    ∀ {text : List Char} {members : List (Option String × Draft)} {rest : List Char},
      readMembers fuel text = (members, some rest) → haveWhole members

section Fuel

variable
  {fuel : Nat}
  {text rest : List Char}

theorem ReadsWhole.value_succ
    (reads : ReadsWhole fuel)
    {draft : Draft}
    (read : readValue (fuel + 1) text = (draft, some rest)) :
    draft.isWhole := by
  rw [readValue] at read
  split at read
  next => cases read; rfl
  next => cases read; rfl
  next => cases read; rfl
  next => split at read <;> cases read; rfl
  next rest _ =>
    split at read
    next => cases read; rfl
    next =>
      rcases inside : readItems fuel (skipBlanks rest) with ⟨items, behind⟩
      rw [inside] at read
      cases read
      rw [isWhole, reads.items inside]
      rfl
  next rest _ =>
    split at read
    next => cases read; rfl
    next =>
      rcases inside : readMembers fuel (skipBlanks rest) with ⟨members, behind⟩
      rw [inside] at read
      cases read
      rw [isWhole, reads.members inside]
      rfl
  next => split at read <;> cases read; rfl

theorem ReadsWhole.items_succ
    (reads : ReadsWhole fuel)
    {items : List Draft}
    (read : readItems (fuel + 1) text = (items, some rest)) :
    areWhole items := by
  rw [readItems] at read
  split at read
  next => cases read
  next here =>
    split at read
    next =>
      cases read
      rw [areWhole, reads.value here]
      rfl
    next rest _ =>
      rcases inside : readItems fuel rest with ⟨others, behind⟩
      rw [inside] at read
      cases read
      rw [areWhole, reads.value here, reads.items inside]
      rfl
    next => cases read

theorem ReadsWhole.members_succ
    (reads : ReadsWhole fuel)
    {members : List (Option String × Draft)}
    (read : readMembers (fuel + 1) text = (members, some rest)) :
    haveWhole members := by
  rw [readMembers] at read
  split at read
  next =>
    split at read
    next => cases read
    next =>
      split at read
      next =>
        split at read
        next => cases read
        next here =>
          split at read
          next =>
            cases read
            rw [haveWhole, reads.value here]
            rfl
          next rest _ =>
            rcases inside : readMembers fuel rest with ⟨others, behind⟩
            rw [inside] at read
            cases read
            rw [haveWhole, reads.value here, reads.members inside]
            rfl
          next => cases read
      next => cases read
  next => cases read

end Fuel

theorem readsWhole (fuel : Nat) : ReadsWhole fuel := by
  induction fuel with
  | zero => exact ⟨nofun, nofun, nofun⟩
  | succ fuel ih => exact ⟨ih.value_succ, ih.items_succ, ih.members_succ⟩

/-- A text that is read to its end is well formed. -/
theorem isWhole_of_read
    {text : String}
    {draft : Draft}
    (ended : read text = (draft, true)) :
    draft.isWhole := by
  rw [read] at ended
  split at ended
  next => cases ended
  next whole =>
    rcases Prod.ext_iff.mp ended with ⟨rfl, -⟩
    exact (readsWhole _).value whole

end Draft

section Texts

variable
  {text : String}
  {document : Json}

/-- A text that holds a document is read as the draft of the document and ends there. -/
theorem read_of_parse?
    (holds : parse? text = some document) :
    Draft.read text = (.ofJson document, true) := by
  rw [parse?] at holds
  split at holds
  next draft read => rw [read, Draft.eq_ofJson_of_toJson? draft holds]
  next => cases holds

/-- A decoder makes of a text what it makes of the document that the text holds. -/
theorem Decoder.ofText_eq_ofJson
    {α : Type}
    (read : Draft.read text = (.ofJson document, true))
    (decoder : Decoder α) :
    decoder.ofText text = decoder.ofJson document := by
  rw [ofText, ofJson, read]
  simp

end Texts

end ItemTable.Json
