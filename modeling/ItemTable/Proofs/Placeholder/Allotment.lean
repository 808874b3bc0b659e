import ItemTable.Placeholder
import ItemTable.Proofs.NameMap
import Mathlib.Data.List.Nodup
import Mathlib.Data.List.Perm.Subperm

/-!
# Laws of allotments

An allotment is sound if no key has two placeholders, no placeholder stands for
two keys, and every placeholder that was given out is known to be taken.  New
and seeded allotments are sound and stay so.

Meeting keys only adds to an allotment: a key keeps its placeholder whatever is
met afterwards.  So what the placeholders mean in the end is what they meant
when a text was rendered.
-/

namespace ItemTable.Allotment

open AssociationList

variable {α : Type} [DecidableEq α]

/-! ## The search for a free placeholder -/

theorem candidate_injective (stem : String) : Function.Injective (candidate stem) := by
  intro left right equal
  have digits : Nat.toDigits 10 left = Nat.toDigits 10 right := by
    have lists := congrArg String.toList equal
    simpa only [candidate, String.toList_append, Nat.toList_repr,
      List.append_cancel_left_eq] using lists
  have numbers := congrArg (fun digits => Nat.ofDigitChars 10 digits 0) digits
  simpa only [Nat.ofDigitChars_ten_toDigits] using numbers

/-- If the search ends at a placeholder that is taken, all placeholders that it
could try are taken. -/
theorem candidate_mem_of_free_mem
    {stem : String}
    {taken : List String}
    {tries number : Nat}
    (found : candidate stem (free stem taken tries number) ∈ taken) :
    ∀ offset ≤ tries, candidate stem (number + offset) ∈ taken := by
  induction tries generalizing number with
  | zero =>
      intro offset bound
      obtain rfl : offset = 0 := Nat.le_zero.1 bound
      exact found
  | succ tries ih =>
      rw [free] at found
      split at found
      next used =>
        intro offset bound
        cases offset with
        | zero => exact List.contains_iff_mem.1 used
        | succ offset =>
            rw [← Nat.succ_add_eq_add_succ]
            exact ih found offset (Nat.le_of_succ_le_succ bound)
      next unused =>
        exact absurd (List.contains_iff_mem.2 found) unused

/-- The search finds a placeholder that is not taken: one number more is tried
than placeholders are taken. -/
theorem free_not_taken
    (stem : String)
    (taken : List String)
    (number : Nat) :
    candidate stem (free stem taken taken.length number) ∉ taken := by
  intro found
  have used := candidate_mem_of_free_mem found
  let tried := (List.range (taken.length + 1)).map fun offset =>
    candidate stem (number + offset)
  have distinct : tried.Nodup := by
    refine List.Nodup.map ?_ List.nodup_range
    intro left right equal
    exact Nat.add_left_cancel (candidate_injective stem equal)
  have within : tried ⊆ taken := by
    intro placeholder member
    rcases List.mem_map.1 member with ⟨offset, bound, rfl⟩
    exact used offset (Nat.lt_succ_iff.1 (List.mem_range.1 bound))
  have short : tried.length ≤ taken.length :=
    (List.subperm_of_subset distinct within).length_le
  rw [List.length_map, List.length_range] at short
  omega

/-! ## Soundness -/

/-- Keys and placeholders belong to each other one to one. -/
structure Sound (allotment : Allotment α) : Prop where
  /-- No key has two placeholders. -/
  keys : (allotment.assigned.map Prod.fst).Nodup
  /-- No placeholder stands for two keys. -/
  placeholders : (allotment.assigned.map Prod.snd).Nodup
  /-- What was given out is taken. -/
  inUse : ∀ entry ∈ allotment.assigned, entry.2 ∈ allotment.taken

omit [DecidableEq α] in
theorem Sound.start (stem : String) : (Allotment.start stem : Allotment α).Sound where
  keys := .nil
  placeholders := .nil
  inUse := by simp [Allotment.start]

/-- Assigning keeps keys distinct and adds no entry besides the one given. -/
theorem assign_cases
    (assigned : List (α × String))
    (key : α)
    (placeholder : String) :
    (assign assigned key placeholder = assigned ∧ key ∈ assigned.map Prod.fst) ∨
      (assign assigned key placeholder = assigned ++ [(key, placeholder)] ∧
        key ∉ assigned.map Prod.fst) := by
  rw [assign]
  split
  next known => exact .inl ⟨rfl, lookup_isSome_iff_mem.1 known⟩
  next unknown => exact .inr ⟨rfl, fun member => unknown (lookup_isSome_iff_mem.2 member)⟩

/-- Seeding assigns every key once and only entries of the seed. -/
theorem foldl_assign
    (entries : List (String × α))
    (assigned : List (α × String))
    (keys : (assigned.map Prod.fst).Nodup)
    (placeholders : (assigned.map Prod.snd ++ entries.map Prod.fst).Nodup) :
    let seeded := entries.foldl
      (fun assigned (placeholder, key) => assign assigned key placeholder) assigned
    (seeded.map Prod.fst).Nodup ∧ (seeded.map Prod.snd).Nodup ∧
      ∀ entry ∈ seeded, entry ∈ assigned ∨ entry.swap ∈ entries := by
  induction entries generalizing assigned with
  | nil => exact ⟨keys, by simpa using placeholders, fun entry member => .inl member⟩
  | cons entry entries ih =>
      rcases entry with ⟨placeholder, key⟩
      rcases assign_cases assigned key placeholder with ⟨same, _⟩ | ⟨more, fresh⟩
      · have fewer : (assigned.map Prod.snd ++ entries.map Prod.fst).Nodup :=
          placeholders.sublist
            (List.Sublist.append_left (List.sublist_cons_self _ _) _)
        rcases ih _ keys fewer with ⟨first, second, only⟩
        refine ⟨by simpa [same] using first, by simpa [same] using second, ?_⟩
        intro entry member
        rcases only entry (by simpa [same] using member) with old | new
        · exact .inl old
        · exact .inr (List.mem_cons_of_mem _ new)
      · have distinct : ((assigned ++ [(key, placeholder)]).map Prod.fst).Nodup := by
          simpa using keys.concat fresh
        have others :
            ((assigned ++ [(key, placeholder)]).map Prod.snd ++
              entries.map Prod.fst).Nodup := by
          simpa using placeholders
        rcases ih _ distinct others with ⟨first, second, only⟩
        refine ⟨by simpa [more] using first, by simpa [more] using second, ?_⟩
        intro entry member
        rcases only entry (by simpa [more] using member) with old | new
        · rcases List.mem_append.1 old with older | here
          · exact .inl older
          · exact .inr (by simp [List.mem_singleton.1 here])
        · exact .inr (List.mem_cons_of_mem _ new)

theorem mem_assigned_seeded
    {stem : String}
    {meanings : NameMap α}
    {entry : α × String}
    (member : entry ∈ (seeded stem meanings).assigned) :
    entry.swap ∈ meanings.toList := by
  obtain ⟨_, _, only⟩ := foldl_assign meanings.toList [] .nil
    (by simpa using meanings.nodup_map_fst_toList)
  exact (only entry member).resolve_left (List.not_mem_nil)

theorem Sound.seeded
    (stem : String)
    (meanings : NameMap α) :
    (Allotment.seeded stem meanings).Sound := by
  obtain ⟨keys, placeholders, _⟩ := foldl_assign meanings.toList [] .nil
    (by simpa using meanings.nodup_map_fst_toList)
  refine ⟨keys, placeholders, ?_⟩
  intro entry member
  have there := List.mem_map_of_mem (f := Prod.fst) (mem_assigned_seeded member)
  rwa [NameMap.map_fst_toList] at there

/-- Distinct keys are assigned one after the other. -/
theorem foldl_assign_of_nodup
    {entries : List (String × α)}
    {assigned : List (α × String)}
    (distinct : (assigned.map Prod.fst ++ entries.map Prod.snd).Nodup) :
    entries.foldl (fun assigned (placeholder, key) => assign assigned key placeholder) assigned =
      assigned ++ entries.map Prod.swap := by
  induction entries generalizing assigned with
  | nil => exact (List.append_nil assigned).symm
  | cons entry entries ih =>
      rcases entry with ⟨placeholder, key⟩
      have fresh : key ∉ assigned.map Prod.fst := fun known =>
        (List.nodup_append.mp distinct).2.2 key known key List.mem_cons_self rfl
      have added : assign assigned key placeholder = assigned ++ [(key, placeholder)] :=
        ((assign_cases assigned key placeholder).resolve_left fun known => fresh known.2).1
      have others :
          ((assigned ++ [(key, placeholder)]).map Prod.fst ++ entries.map Prod.snd).Nodup := by
        simpa using distinct
      rw [List.foldl_cons]
      dsimp only
      rw [added, ih others, List.append_assoc]
      rfl

/-- Placeholders with distinct meanings keep them all. -/
theorem meanings_seeded
    {stem : String}
    {map : NameMap α}
    (distinct : (map.toList.map Prod.snd).Nodup) :
    (seeded stem map).meanings = map := by
  have whole : (seeded stem map).assigned = map.toList.map Prod.swap :=
    foldl_assign_of_nodup (by simpa using distinct)
  rw [meanings, whole, List.map_map]
  apply NameMap.ofList_eq
  · rw [List.map_map, ← map.map_fst_toList]
    exact .refl _
  · intro entry member
    rcases List.mem_map.mp member with ⟨original, present, rfl⟩
    exact NameMap.find?_eq_some_iff.mpr present

theorem Sound.allot
    {allotment : Allotment α}
    (sound : allotment.Sound)
    (key : α) :
    (allotment.allot key).2.Sound := by
  rw [Allotment.allot]
  split
  next => exact sound
  next unknown =>
    have fresh : key ∉ allotment.assigned.map Prod.fst := by
      rw [← lookup_isSome_iff_mem, unknown]
      simp
    have unused := free_not_taken allotment.stem allotment.taken allotment.next
    have unassigned :
        candidate allotment.stem (free allotment.stem allotment.taken
          allotment.taken.length allotment.next) ∉ allotment.assigned.map Prod.snd := by
      intro member
      rcases List.mem_map.1 member with ⟨entry, known, equal⟩
      exact unused (equal ▸ sound.inUse entry known)
    refine ⟨?_, ?_, ?_⟩
    · simpa using sound.keys.concat fresh
    · simpa using sound.placeholders.concat unassigned
    · intro entry member
      rcases List.mem_append.1 member with known | here
      · exact List.mem_cons_of_mem _ (sound.inUse entry known)
      · rw [List.mem_singleton.1 here]
        exact List.mem_cons_self

/-! ## What is known later -/

/-- Every key that has a placeholder has the same one in `later`. -/
def Extends (later earlier : Allotment α) : Prop :=
  ∀ key placeholder,
    earlier.assigned.lookup key = some placeholder →
      later.assigned.lookup key = some placeholder

theorem Extends.refl (allotment : Allotment α) : allotment.Extends allotment :=
  fun _ _ known => known

theorem Extends.trans
    {last later earlier : Allotment α}
    (second : last.Extends later)
    (first : later.Extends earlier) :
    last.Extends earlier :=
  fun key placeholder known => second key placeholder (first key placeholder known)

/-- The placeholder that is given out is known afterwards. -/
theorem lookup_allot (allotment : Allotment α) (key : α) :
    (allotment.allot key).2.assigned.lookup key = some (allotment.allot key).1 := by
  rw [allot]
  split
  next placeholder known => exact known
  next unknown => simp [List.lookup_append, unknown]

theorem extends_allot (allotment : Allotment α) (key : α) :
    (allotment.allot key).2.Extends allotment := by
  intro other placeholder known
  rw [allot]
  split
  next => exact known
  next => simp [List.lookup_append, known]

/-! ## Meeting keys one after the other -/

/-- The allotment after some keys have been met. -/
def allotAll (allotment : Allotment α) (keys : List α) : Allotment α :=
  keys.foldl (fun allotment key => (allotment.allot key).2) allotment

@[simp]
theorem allotAll_nil (allotment : Allotment α) : allotment.allotAll [] = allotment :=
  rfl

@[simp]
theorem allotAll_cons (allotment : Allotment α) (key : α) (keys : List α) :
    allotment.allotAll (key :: keys) = (allotment.allot key).2.allotAll keys :=
  rfl

theorem allotAll_append (allotment : Allotment α) (first second : List α) :
    allotment.allotAll (first ++ second) = (allotment.allotAll first).allotAll second :=
  List.foldl_append

theorem extends_allotAll (allotment : Allotment α) (keys : List α) :
    (allotment.allotAll keys).Extends allotment := by
  induction keys generalizing allotment with
  | nil => exact .refl allotment
  | cons key keys ih => exact (ih _).trans (allotment.extends_allot key)

theorem Sound.allotAll
    {allotment : Allotment α}
    (sound : allotment.Sound)
    (keys : List α) :
    (allotment.allotAll keys).Sound := by
  induction keys generalizing allotment with
  | nil => exact sound
  | cons key keys ih => exact ih (sound.allot key)

/-- Allotting makes its key known and no other. -/
theorem mem_keys_allot (allotment : Allotment α) (key other : α) :
    other ∈ (allotment.allot key).2.assigned.map Prod.fst ↔
      other ∈ allotment.assigned.map Prod.fst ∨ other = key := by
  rw [allot]
  split
  next placeholder known =>
    have member := lookup_isSome_iff_mem.1 (Option.isSome_of_eq_some known)
    exact ⟨.inl, fun either => either.elim id (fun equal => equal ▸ member)⟩
  next => simp

/-- The keys with placeholders are the old ones and those that were met. -/
theorem mem_keys_allotAll (allotment : Allotment α) (keys : List α) (key : α) :
    key ∈ (allotment.allotAll keys).assigned.map Prod.fst ↔
      key ∈ allotment.assigned.map Prod.fst ∨ key ∈ keys := by
  induction keys generalizing allotment with
  | nil => simp
  | cons first keys ih =>
      rw [allotAll_cons, ih, mem_keys_allot, List.mem_cons, or_assoc]

/-! ## Meanings -/

/-- A placeholder means the key that has it. -/
theorem Sound.find?_meanings
    {allotment : Allotment α}
    (sound : allotment.Sound)
    {key : α}
    {placeholder : String} :
    allotment.meanings.find? placeholder = some key ↔
      allotment.assigned.lookup key = some placeholder := by
  rw [meanings, NameMap.find?_ofList, lookup_eq_some_iff_mem sound.keys]
  · simp
  · simpa [List.map_map, Function.comp_def] using sound.placeholders

/-- No two placeholders mean the same. -/
theorem Sound.find?_meanings_injective
    {allotment : Allotment α}
    (sound : allotment.Sound)
    (first second : String)
    (key : α)
    (isFirst : allotment.meanings.find? first = some key)
    (isSecond : allotment.meanings.find? second = some key) :
    first = second := by
  rw [sound.find?_meanings] at isFirst isSecond
  exact Option.some.inj (isFirst.symm.trans isSecond)

/-- The placeholders with a meaning are those that were given out. -/
theorem Sound.mem_names_meanings
    {allotment : Allotment α}
    (sound : allotment.Sound)
    {placeholder : String} :
    placeholder ∈ allotment.meanings.names ↔
      ∃ key, allotment.assigned.lookup key = some placeholder := by
  rw [← NameMap.find?_isSome_iff, Option.isSome_iff_exists]
  exact exists_congr fun key => sound.find?_meanings

end ItemTable.Allotment
