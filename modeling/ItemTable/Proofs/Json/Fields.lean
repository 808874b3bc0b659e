import ItemTable.Proofs.Json.Rearranged

/-!
# Records are read back

The members that a record is written as are pieced together like the record itself: each
field has its own member, or none.  A record that is pieced together from fields that
recover their values recovers the value that these make up.
-/

namespace ItemTable.Json.Record

open AssociationList

/-! ## Fields among members -/

/-- What was found under a name is what is written there, rearranged. -/
def Finds
    (levels : Nat)
    (found : Option Draft)
    (written : Option Json) :
    Prop :=
  Option.Rel (fun draft document =>
    ∃ other, document.Rearranged other ∧ other.depth < levels ∧ draft = .ofJson other)
    found written

/-- The record makes up the value from what is written under the names of its fields. -/
structure Takes
    {α : Type}
    (record : Record α)
    (written : String → Option Json)
    (value : α) :
    Prop where
  accepts : ∀ field ∈ record.fields, ∀ document,
    written field.name = some document → field.accepts.Recovers document ()
  build : ∀ {levels found},
    0 < levels →
      (∀ field ∈ record.fields,
        Finds levels (found.lookup field.name) (written field.name)) →
      record.build levels found = .ok value

/-- The members are those of the fields of a record, in order, and the record makes up the
value from them if no two fields share a name. -/
structure Fills
    {α : Type}
    (record : Record α)
    (members : List (String × Json))
    (value : α) :
    Prop where
  names : (members.map Prod.fst).Sublist (record.fields.map Field.name)
  takes : (record.fields.map Field.name).Nodup →
    record.Takes (fun name => members.lookup name) value

section Combining

variable
  {α β : Type}
  {first : Record (α → β)}
  {second : Record α}
  {make : α → β}
  {value : α}

theorem Takes.congr
    {written other : String → Option Json}
    (takes : second.Takes written value)
    (same : ∀ field ∈ second.fields, other field.name = written field.name) :
    second.Takes other value where
  accepts field member document there :=
    takes.accepts field member document (same field member ▸ there)
  build positive finds :=
    takes.build positive fun field member => same field member ▸ finds field member

theorem Takes.apply
    {written : String → Option Json}
    (takesFirst : first.Takes written make)
    (takesSecond : second.Takes written value) :
    (first.apply second).Takes written (make value) where
  accepts field member := by
    rcases List.mem_append.mp member with left | right
    · exact takesFirst.accepts field left
    · exact takesSecond.accepts field right
  build positive finds := by
    have left := takesFirst.build positive fun field member =>
      finds field (List.mem_append_left _ member)
    have right := takesSecond.build positive fun field member =>
      finds field (List.mem_append_right _ member)
    change (do return (← first.build _ _) (← second.build _ _)) = _
    rw [left, ok_bind, right, ok_bind]
    rfl

/-- Two records that share no field are filled by the members of both. -/
theorem Fills.seq
    {members others : List (String × Json)}
    (fillsFirst : first.Fills members make)
    (fillsSecond : second.Fills others value) :
    (first <*> second).Fills (members ++ others) (make value) where
  names := by
    change List.Sublist _ ((first.fields ++ second.fields).map Field.name)
    rw [List.map_append, List.map_append]
    exact fillsFirst.names.append fillsSecond.names
  takes distinct := by
    change ((first.fields ++ second.fields).map Field.name).Nodup at distinct
    rw [List.map_append, List.nodup_append'] at distinct
    rcases distinct with ⟨distinctFirst, distinctSecond, disjoint⟩
    refine ((fillsFirst.takes distinctFirst).congr fun field member => ?_).apply
      ((fillsSecond.takes distinctSecond).congr fun field member => ?_)
    · exact lookup_append_left fun there =>
        disjoint (List.mem_map_of_mem member) (fillsSecond.names.subset there)
    · exact lookup_append_right fun there =>
        disjoint (fillsFirst.names.subset there) (List.mem_map_of_mem member)

theorem fills_pure (value : α) : (Record.pure value).Fills [] value where
  names := .slnil
  takes _ := ⟨nofun, fun _ _ => rfl⟩

theorem Fills.map
    {members : List (String × Json)}
    (fills : second.Fills members value) :
    (make <$> second).Fills members (make value) :=
  (fills_pure make).seq fills

end Combining

/-! ## Single fields -/

section Single

variable
  {α : Type}
  {decoder : Decoder α}
  {name : String}
  {value : α}
  {document : Json}

/-- A field accepts what its decoder reads. -/
theorem accepts_of_recovers
    (recovers : decoder.Recovers document value) :
    Decoder.Recovers (fun levels draft => do discard (decoder levels draft)) document () where
  filled := recovers.filled
  reads moved levels positive := by
    rw [recovers.reads moved positive]
    split <;> rfl

theorem orNull_of_recovers
    (recovers : decoder.Recovers document value) :
    (orNull decoder).Recovers document (some value) where
  filled := recovers.filled
  reads {other} moved levels positive := by
    have filled : Draft.ofJson other ≠ .null := by
      cases other with
      | null =>
          cases moved
          exact absurd rfl recovers.filled
      | _ => exact nofun
    have read : orNull decoder levels (.ofJson other) = do
        return some (← decoder levels (.ofJson other)) := by
      rw [orNull.eq_def]
      split
      · contradiction
      · rfl
    rw [read, recovers.reads moved positive]
    split <;> rfl

section Presence

variable {record : Record α}

/-- A field that is there is filled by its member. -/
theorem fills_present
    {presence : Presence}
    (alone : record.fields =
      [⟨name, presence, fun levels draft => do discard (decoder levels draft)⟩])
    (build : ∀ {levels found draft},
      found.lookup name = some draft → record.build levels found = decoder levels draft)
    (recovers : decoder.Recovers document value) :
    record.Fills [(name, document)] value where
  names := by rw [alone]; exact .refl _
  takes _ := by
    have written : [(name, document)].lookup name = some document := List.lookup_cons_self
    refine ⟨fun field member other there => ?_, fun {levels found} positive finds => ?_⟩
    · rw [alone] at member
      cases List.mem_singleton.mp member
      cases written.symm.trans there
      exact accepts_of_recovers recovers
    · have here := finds _ (alone ▸ List.mem_cons_self)
      rw [Finds, written] at here
      generalize lookedUp : found.lookup name = draft at here
      rcases here with ⟨other, moved, within, rfl⟩ | _
      rw [build lookedUp, recovers.reads moved positive, if_pos within]

/-- A field that is not there is filled by no member. -/
theorem fills_absent
    {field : Field}
    (alone : record.fields = [field])
    (build : ∀ {levels found},
      found.lookup field.name = none → record.build levels found = .ok value) :
    record.Fills [] value where
  names := List.nil_sublist _
  takes _ := by
    refine ⟨nofun, fun {levels found} _ finds => build ?_⟩
    have here := finds field (alone ▸ List.mem_cons_self)
    rw [List.lookup_nil] at here
    generalize found.lookup field.name = draft at here ⊢
    cases here
    rfl

end Presence

theorem fills_required
    (recovers : decoder.Recovers document value) :
    (Record.required name decoder).Fills [(name, document)] value := by
  refine fills_present rfl (fun there => ?_) recovers
  rw [required]
  simp only [there]

theorem fills_optional
    {write : α → Json}
    {value : Option α}
    (recovers : ∀ content ∈ value, decoder.Recovers (write content) content) :
    (Record.optional name decoder).Fills (optionalMember name write value) value := by
  cases value with
  | none =>
      refine fills_absent rfl fun absent => ?_
      rw [optional]
      simp only [absent]
  | some content =>
      refine fills_present rfl (fun there => ?_) (orNull_of_recovers (recovers content rfl))
      rw [optional]
      simp only [there]

/-- A field with a default is left out if its value is the default. -/
theorem fills_defaulted
    {missing : α}
    {absent : Bool}
    (default : absent = true → missing = value)
    (recovers : decoder.Recovers document value) :
    (Record.defaulted name missing decoder).Fills
      (if absent then [] else [(name, document)]) value := by
  split
  next isAbsent =>
    refine fills_absent rfl fun absent => ?_
    rw [defaulted]
    simp only [absent, default isAbsent]
  next =>
    refine fills_present rfl (fun there => ?_) recovers
    rw [defaulted]
    simp only [there]

end Single

/-! ## Reading records -/

section Reading

variable
  {α : Type}
  {record : Record α}
  {members pieces : List (String × Json)}
  {value : α}

/-- Members that stand for fields are all found, unless one is nested too deeply. -/
theorem readMembers_of_recovers
    {fields : List Field}
    {levels : Nat}
    {found : List (String × Draft)}
    (positive : 0 < levels)
    (distinct : (members.map Prod.fst).Nodup)
    (fresh : ∀ member ∈ members, found.lookup member.1 = none)
    (known : ∀ member ∈ members, member.1 ∈ fields.map Field.name)
    (accepts : ∀ member ∈ members, ∀ field ∈ fields, field.name = member.1 →
      ∃ document, field.accepts.Recovers document () ∧ document.Rearranged member.2) :
    readMembers fields levels found (Draft.ofMembers members) =
      if ∀ member ∈ members, member.2.depth < levels then
        .ok (found ++ members.map fun member => (member.1, .ofJson member.2))
      else
        .error .malformed := by
  induction members generalizing found with
  | nil => simp [Draft.ofMembers, readMembers]
  | cons member members ih =>
      rcases member with ⟨name, document⟩
      rcases List.nodup_cons.mp distinct with ⟨new, distinctBehind⟩
      rcases List.forall_mem_cons.mp fresh with ⟨unfound, freshBehind⟩
      rcases List.forall_mem_cons.mp known with ⟨named, knownBehind⟩
      rcases List.forall_mem_cons.mp accepts with ⟨accepted, acceptsBehind⟩
      have freshNext :
          ∀ member ∈ members,
            (found ++ [(name, Draft.ofJson document)]).lookup member.1 = none := by
        intro member there
        have other : member.1 ≠ name := by
          rintro rfl
          exact new (List.mem_map.mpr ⟨member, there, rfl⟩)
        rw [List.lookup_append, freshBehind member there, lookup_cons_ite, if_neg other]
        rfl
      cases field? : fields.find? fun field => field.name == name with
      | none =>
          rcases List.mem_map.mp named with ⟨field, member, same⟩
          exact absurd (beq_iff_eq.mpr same) (List.find?_eq_none.mp field? field member)
      | some field =>
          have same : field.name = name := by simpa using List.find?_some field?
          rcases accepted field (List.mem_of_find?_eq_some field?) same with
            ⟨written, recovers, moved⟩
          rw [Draft.ofMembers, readMembers, field?]
          simp only [unfound, recovers.reads moved positive,
            ih distinctBehind freshNext knownBehind acceptsBehind, List.forall_mem_cons]
          by_cases within : document.depth < levels
          · simp only [within, if_true, true_and, List.append_assoc]
            rfl
          · simp only [within, if_false, false_and]
            rfl

/-- Among rearranged members stands under every name what is written there. -/
theorem finds_of_members
    {levels : Nat}
    (names : (members.map Prod.fst).Perm (pieces.map Prod.fst))
    (written : ∀ member ∈ members, ∃ document,
      pieces.lookup member.1 = some document ∧ document.Rearranged member.2)
    (within : ∀ member ∈ members, member.2.depth < levels)
    (name : String) :
    Finds levels
      ((members.map fun member => (member.1, Draft.ofJson member.2)).lookup name)
      (pieces.lookup name) := by
  rw [lookup_map_snd]
  cases found : members.lookup name with
  | none =>
      have absent := mt names.mem_iff.mpr (lookup_eq_none_iff_not_mem.mp found)
      rw [lookup_eq_none_iff_not_mem.mpr absent]
      exact .none
  | some other =>
      have there := mem_of_lookup found
      rcases written _ there with ⟨document, stands, moved⟩
      rw [stands]
      exact .some ⟨other, moved, within _ there, rfl⟩

/-- A record is read from its members in any order. -/
theorem Fills.reads
    {other : Json}
    (fills : record.Fills pieces value)
    (distinct : (record.fields.map Field.name).Nodup)
    (ordered : members.Perm pieces)
    (moved : (Json.object members).Rearranged other) :
    record.decode.Reads other value := by
  intro levels
  rcases moved.exists_members with ⟨others, rfl, names, each⟩
  have takes := fills.takes distinct
  -- No name occurs twice among the members, because none does among the fields.
  have sameNames := names.trans (ordered.map Prod.fst)
  have distinctPieces : (pieces.map Prod.fst).Nodup := fills.names.nodup distinct
  have distinctOthers : (others.map Prod.fst).Nodup := sameNames.nodup_iff.mpr distinctPieces
  have written : ∀ member ∈ others, ∃ document,
      pieces.lookup member.1 = some document ∧ document.Rearranged member.2 := by
    intro member there
    rcases each member there with ⟨document, here, moved⟩
    exact ⟨document, lookup_of_mem distinctPieces (ordered.subset here), moved⟩
  rw [Draft.ofJson, decode]
  simp only [depth_object_lt]
  by_cases closed : levels ≤ 1
  · simp only [closed, if_true, not_true, false_and, if_false]
  have positive : 0 < levels - 1 := by omega
  have known : ∀ member ∈ others, member.1 ∈ record.fields.map Field.name := fun _ there =>
    fills.names.subset (sameNames.subset (List.mem_map_of_mem there))
  have accepts : ∀ member ∈ others, ∀ field ∈ record.fields, field.name = member.1 →
      ∃ document, field.accepts.Recovers document () ∧ document.Rearranged member.2 := by
    intro member there field isField same
    rcases written member there with ⟨document, here, moved⟩
    exact ⟨document, takes.accepts field isField document (same ▸ here), moved⟩
  rw [if_neg closed,
    readMembers_of_recovers positive distinctOthers (fun _ _ => rfl) known accepts]
  simp only [closed, not_false_eq_true, true_and, List.nil_append]
  by_cases within : ∀ member ∈ others, member.2.depth < levels - 1
  · rw [if_pos within, if_pos within]
    exact takes.build positive fun field _ => finds_of_members sameNames written within field.name
  · rw [if_neg within, if_neg within]
    rfl

theorem Fills.recovers
    (fills : record.Fills pieces value)
    (distinct : (record.fields.map Field.name).Nodup)
    (ordered : members.Perm pieces) :
    record.decode.Recovers (.object members) value where
  filled := nofun
  reads moved levels _ := fills.reads distinct ordered moved levels

end Reading

end ItemTable.Json.Record
