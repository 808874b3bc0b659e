import ItemTable.Proofs.Placeholder.Allotment
import Mathlib.Data.List.Induction
import Mathlib.Order.Bounds.Basic

/-!
# The numbers of placeholders

The number of a new placeholder is found by counting up to one that is not taken.  The
count comes to an end wherever it begins, since only finitely many placeholders are taken.

An allotment never begins to count behind a number that is free.  So a new placeholder has
the smallest number that neither the placeholders to go on from nor earlier ones have, and
an allotment without placeholders to go on from numbers its keys from zero, one after the
other in the order in which they are first met.
-/

namespace ItemTable.Allotment

open AssociationList

/-! ## Counting up -/

/-- Counting up from a number passes the placeholders that are taken and ends at the first
one that is not. -/
inductive CountsTo (stem : String) (taken : List String) : Nat → Nat → Prop
  | here
      {number : Nat}
      (unused : candidate stem number ∉ taken) :
      CountsTo stem taken number number
  | onward
      {number found : Nat}
      (used : candidate stem number ∈ taken)
      (behind : CountsTo stem taken (number + 1) found) :
      CountsTo stem taken number found

variable {stem : String} {taken : List String} {number found : Nat}

theorem countsTo_free_of_not_mem
    {tries : Nat}
    (unused : candidate stem (free stem taken tries number) ∉ taken) :
    CountsTo stem taken number (free stem taken tries number) := by
  induction tries generalizing number with
  | zero => exact .here unused
  | succ tries ih =>
      rw [free] at unused ⊢
      split at unused
      next used =>
        rw [if_pos used]
        exact .onward (List.contains_iff_mem.mp used) (ih unused)
      next notUsed =>
        rw [if_neg notUsed]
        exact .here unused

/-- The search with as many tries as placeholders are taken is the whole count. -/
theorem countsTo_free
    (stem : String)
    (taken : List String)
    (number : Nat) :
    CountsTo stem taken number (free stem taken taken.length number) :=
  countsTo_free_of_not_mem (free_not_taken stem taken number)

/-- The count ends at the smallest number from its beginning on that is free. -/
theorem CountsTo.isLeast (counts : CountsTo stem taken number found) :
    IsLeast {free | number ≤ free ∧ candidate stem free ∉ taken} found := by
  induction counts with
  | here unused => exact ⟨⟨Nat.le_refl _, unused⟩, fun _ isFree => isFree.1⟩
  | @onward number found used behind ih =>
      rcases ih with ⟨⟨above, unused⟩, smallest⟩
      refine ⟨⟨Nat.le_of_succ_le above, unused⟩, ?_⟩
      rintro free ⟨here, isFree⟩
      have notHere : number ≠ free := by
        rintro rfl
        exact isFree used
      exact smallest ⟨Nat.lt_of_le_of_ne here notHere, isFree⟩

/-! ## The smallest unused number -/

variable {α : Type} [DecidableEq α] {allotment : Allotment α} {seed : List String}

@[simp]
theorem stem_allot (allotment : Allotment α) (key : α) :
    (allotment.allot key).2.stem = allotment.stem := by
  rw [allot]
  split <;> rfl

@[simp]
theorem stem_allotAll (allotment : Allotment α) (keys : List α) :
    (allotment.allotAll keys).stem = allotment.stem := by
  induction keys generalizing allotment with
  | nil => rfl
  | cons key keys ih => rw [allotAll_cons, ih, stem_allot]

/-- A key with a placeholder is met again without effect. -/
theorem allot_of_lookup
    {key : α}
    {placeholder : String}
    (known : allotment.assigned.lookup key = some placeholder) :
    allotment.allot key = (placeholder, allotment) := by
  rw [allot, known]

/-- A key without a placeholder gets the one at which the count ends. -/
theorem allot_of_new
    {key : α}
    (new : allotment.assigned.lookup key = none) :
    ∃ number, CountsTo allotment.stem allotment.taken allotment.next number ∧
      allotment.allot key = (candidate allotment.stem number,
        { allotment with
          assigned := allotment.assigned ++ [(key, candidate allotment.stem number)]
          taken := candidate allotment.stem number :: allotment.taken
          next := number + 1 }) :=
  ⟨_, countsTo_free _ _ _, by rw [allot, new]⟩

/-- What is taken are the placeholders to go on from and those that were given out, and no
number below the next one is free. -/
structure Gapless (seed : List String) (allotment : Allotment α) : Prop where
  taken : ∀ placeholder, placeholder ∈ allotment.taken ↔
    placeholder ∈ seed ∨ placeholder ∈ allotment.assigned.map Prod.snd
  passed : ∀ number < allotment.next, candidate allotment.stem number ∈ allotment.taken

omit [DecidableEq α] in
theorem Gapless.start (stem : String) : (Allotment.start stem : Allotment α).Gapless [] where
  taken placeholder := by simp [Allotment.start]
  passed number below := absurd below (Nat.not_lt_zero number)

theorem Gapless.seeded (stem : String) (meanings : NameMap α) :
    (Allotment.seeded stem meanings).Gapless meanings.names where
  taken placeholder := by
    refine ⟨.inl, fun either => either.elim id fun given => ?_⟩
    rcases List.mem_map.mp given with ⟨entry, assigned, rfl⟩
    have there := List.mem_map_of_mem (f := Prod.fst) (mem_assigned_seeded assigned)
    rwa [NameMap.map_fst_toList] at there
  passed number below := absurd below (Nat.not_lt_zero number)

omit [DecidableEq α] in
theorem Gapless.next_le
    (gapless : allotment.Gapless seed)
    (unused : candidate allotment.stem number ∉ allotment.taken) :
    allotment.next ≤ number :=
  Nat.le_of_not_lt fun below => unused (gapless.passed number below)

omit [DecidableEq α] in
/-- A new placeholder has the smallest number that no placeholder to go on from and none
that was given out has. -/
theorem Gapless.isLeast
    (gapless : allotment.Gapless seed)
    (counts : CountsTo allotment.stem allotment.taken allotment.next number) :
    IsLeast {free | candidate allotment.stem free ∉ seed ∧
      candidate allotment.stem free ∉ allotment.assigned.map Prod.snd} number := by
  rcases counts.isLeast with ⟨⟨-, unused⟩, smallest⟩
  have free_iff (free : Nat) : candidate allotment.stem free ∉ allotment.taken ↔
      candidate allotment.stem free ∉ seed ∧
        candidate allotment.stem free ∉ allotment.assigned.map Prod.snd := by
    rw [gapless.taken, not_or]
  refine ⟨(free_iff number).mp unused, ?_⟩
  intro free isFree
  have notTaken := (free_iff free).mpr isFree
  exact smallest ⟨gapless.next_le notTaken, notTaken⟩

theorem Gapless.allot
    (gapless : allotment.Gapless seed)
    (key : α) :
    (allotment.allot key).2.Gapless seed := by
  cases known : allotment.assigned.lookup key with
  | some placeholder =>
      rw [allot_of_lookup known]
      exact gapless
  | none =>
      rcases allot_of_new known with ⟨number, counts, equal⟩
      rw [equal]
      refine ⟨fun placeholder => ?_, fun passed below => ?_⟩
      · simp only [List.mem_cons, List.map_append, List.mem_append, List.map_cons, List.map_nil,
          List.not_mem_nil, or_false, gapless.taken]
        tauto
      · rcases Nat.lt_succ_iff_lt_or_eq.mp below with less | rfl
        · refine List.mem_cons_of_mem _ ?_
          by_contra unused
          have counted := counts.isLeast.2 ⟨gapless.next_le unused, unused⟩
          exact Nat.not_le_of_gt less counted
        · exact List.mem_cons_self

theorem Gapless.allotAll
    (gapless : allotment.Gapless seed)
    (keys : List α) :
    (allotment.allotAll keys).Gapless seed := by
  induction keys generalizing allotment with
  | nil => exact gapless
  | cons key keys ih => exact ih (gapless.allot key)

/-! ## Numbers from zero -/

theorem eraseDups_concat (keys : List α) (key : α) :
    (keys ++ [key]).eraseDups =
      if key ∈ keys then keys.eraseDups else keys.eraseDups ++ [key] := by
  rw [List.eraseDups_append, List.removeAll]
  split
  next met => simp [met]
  next new => simp [new, List.eraseDups_cons]

omit [DecidableEq α] in
/-- Among keys that are numbered from zero, the numbers in use are those below their
count. -/
theorem candidate_mem_mapIdx_iff (stem : String) (keys : List α) (number : Nat) :
    candidate stem number ∈
        (keys.mapIdx fun number key => (key, candidate stem number)).map Prod.snd ↔
      number < keys.length := by
  simp only [List.mem_map, List.mem_mapIdx]
  constructor
  · rintro ⟨_, ⟨place, inside, rfl⟩, same⟩
    exact candidate_injective stem same ▸ inside
  · intro inside
    exact ⟨_, ⟨number, inside, rfl⟩, rfl⟩

/-- Without placeholders to go on from, the keys are numbered from zero in the order in which
they are first met. -/
theorem assigned_allotAll_start (stem : String) (keys : List α) :
    ((start stem).allotAll keys).assigned =
      keys.eraseDups.mapIdx fun number key => (key, candidate stem number) := by
  induction keys using List.reverseRecOn with
  | nil => rfl
  | append_singleton keys key ih =>
      have met_iff : key ∈ ((start stem).allotAll keys).assigned.map Prod.fst ↔ key ∈ keys := by
        simp [mem_keys_allotAll, start]
      rw [allotAll_append, allotAll_cons, allotAll_nil, eraseDups_concat]
      split
      next met =>
        rcases Option.isSome_iff_exists.mp (lookup_isSome_iff_mem.mpr (met_iff.mpr met))
          with ⟨placeholder, known⟩
        rw [allot_of_lookup known, ih]
      next new =>
        have unknown := lookup_eq_none_iff_not_mem.mpr fun met => new (met_iff.mp met)
        rcases allot_of_new unknown with ⟨number, counts, equal⟩
        have least := ((Gapless.start stem).allotAll keys).isLeast counts
        have unused : {free | candidate stem free ∉ ([] : List String) ∧ candidate stem free ∉
            ((start stem).allotAll keys).assigned.map Prod.snd} =
              {free | keys.eraseDups.length ≤ free} := by
          ext free
          rw [ih]
          simp [candidate_mem_mapIdx_iff]
        rw [stem_allotAll, show (start stem : Allotment α).stem = stem from rfl, unused] at least
        have counted : number = keys.eraseDups.length := least.unique isLeast_Ici
        rw [equal, List.mapIdx_concat, ih, counted, stem_allotAll]
        rfl

end ItemTable.Allotment
