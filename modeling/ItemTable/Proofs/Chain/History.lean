import ItemTable.Proofs.Chain.Building
import Mathlib.Data.List.DropRight

/-!
# What a chain has collected

The filter, the write condition, the key condition, the key and the pending connective
of a chain, read off the history of its calls.  Only the calls since the last `clear`
count, and one pending connective serves filters and write conditions alike: whichever
comes first uses it up.
-/

namespace ItemTable

/-! ## Histories -/

namespace BuilderCall

/-- Whether the call makes the chain new again. -/
def isClear : BuilderCall → Bool
  | clear => true
  | _ => false

/-- Whether the call sets the pending connective or uses it up. -/
def turns : BuilderCall → Bool
  | or | and | filter _ | condition _ | clear => true
  | _ => false

/-- The connective that is pending after some calls: OR if the last of them that sets it
or uses it up is `or`. -/
def pendingAfter (calls : List BuilderCall) : Connective :=
  match (calls.filter turns).getLast? with
  | some .or => .or
  | _ => .and

/-- A call with all calls before it. -/
structure Occurrence where
  earlier : List BuilderCall
  call : BuilderCall

/-- Every call of a list that comes after some others, with all calls before it. -/
def occurrences (earlier : List BuilderCall) : List BuilderCall → List Occurrence
  | [] => []
  | call :: calls => ⟨earlier, call⟩ :: occurrences (earlier ++ [call]) calls

/-- The calls since the last `clear`. -/
def sinceClear (calls : List BuilderCall) : List Occurrence :=
  (occurrences [] calls).rtakeWhile fun occurrence => !occurrence.call.isClear

namespace Occurrence

/-- The condition that the call adds to the filter, and how it is joined. -/
def toFilter? : Occurrence → Option (Connective × Condition)
  | ⟨earlier, .filter added⟩ => some (pendingAfter earlier, added)
  | ⟨_, filterWith connective added⟩ => some (connective, added)
  | _ => none

/-- The condition that the call adds to the write condition, and how it is joined. -/
def toCondition? : Occurrence → Option (Connective × Condition)
  | ⟨earlier, .condition added⟩ => some (pendingAfter earlier, added)
  | ⟨_, conditionWith connective added⟩ => some (connective, added)
  | _ => none

/-- The condition that the call adds to the key condition, always with AND. -/
def toKeyCondition? : Occurrence → Option (Connective × Condition)
  | ⟨_, keyCondition added⟩ => some (.and, added)
  | _ => none

/-- The value that the call sets under the name in the key. -/
def keyValue? (name : String) : Occurrence → Option AttributeValue
  | ⟨_, key other value⟩ => if other = name then some value else none
  | _ => none

end Occurrence

theorem occurrences_concat
    (earlier calls : List BuilderCall)
    (call : BuilderCall) :
    occurrences earlier (calls ++ [call]) =
      occurrences earlier calls ++ [⟨earlier ++ calls, call⟩] := by
  induction calls generalizing earlier with
  | nil => simp [occurrences]
  | cons first calls ih => simp [occurrences, ih]

/-- After `clear` there is no call yet. -/
theorem sinceClear_clear (calls : List BuilderCall) :
    sinceClear (calls ++ [clear]) = [] := by
  rw [sinceClear, occurrences_concat, List.rtakeWhile_concat]
  rfl

/-- Any other call is one more since the last `clear`. -/
theorem sinceClear_concat
    {call : BuilderCall}
    (keeps : call.isClear = false)
    (calls : List BuilderCall) :
    sinceClear (calls ++ [call]) = sinceClear calls ++ [⟨calls, call⟩] := by
  rw [sinceClear, occurrences_concat, List.rtakeWhile_concat, keeps]
  rfl

/-- What is read off the calls since the last `clear` grows by what the new call says. -/
theorem filterMap_sinceClear_concat
    {β : Type}
    {call : BuilderCall}
    (keeps : call.isClear = false)
    (read : Occurrence → Option β)
    (calls : List BuilderCall) :
    (sinceClear (calls ++ [call])).filterMap read =
      (sinceClear calls).filterMap read ++ (read ⟨calls, call⟩).toList := by
  rw [sinceClear_concat keeps, List.filterMap_append]
  cases found : read ⟨calls, call⟩ <;> simp [found]

/-- A call that does not bear on the pending connective leaves it as it is. -/
theorem pendingAfter_concat
    {call : BuilderCall}
    (keeps : call.turns = false)
    (calls : List BuilderCall) :
    pendingAfter (calls ++ [call]) = pendingAfter calls := by
  rw [pendingAfter, List.filter_append, List.filter_singleton, keeps]
  simp [pendingAfter]

/-- A call that bears on the pending connective decides it alone. -/
theorem pendingAfter_concat_of_turns
    {call : BuilderCall}
    (turned : call.turns = true)
    (calls : List BuilderCall) :
    pendingAfter (calls ++ [call]) = pendingAfter [call] := by
  rw [pendingAfter, List.filter_append, List.filter_singleton, turned]
  simp [pendingAfter, turned]

end BuilderCall

/-! ## Collecting -/

namespace Condition

/-- A condition joined to the ones that there are, if a call adds one. -/
def joinNext (present : Option Condition) : Option (Connective × Condition) → Option Condition
  | some (connective, added) => ChainState.join present connective added
  | none => present

/-- Conditions joined from left to right, each to the ones before it in its own way. -/
def joinAll : List (Connective × Condition) → Option Condition
  | [] => none
  | (_, first) :: others =>
      some (others.foldl (fun joined next => .joined next.1 joined next.2) first)

/-- One more condition is joined to what the ones before it make up. -/
theorem joinAll_append
    (added : List (Connective × Condition))
    (next : Option (Connective × Condition)) :
    joinAll (added ++ next.toList) = joinNext (joinAll added) next := by
  cases next with
  | none => simp [joinNext]
  | some next =>
      cases added with
      | nil => rfl
      | cons first others => simp [joinAll, joinNext, ChainState.join, List.foldl_append]

end Condition

namespace ChainState

open BuilderCall Condition

/-- The chain has collected what the calls of a history say. -/
structure Collects (chain : ChainState) (calls : List BuilderCall) : Prop where
  filter : chain.filter = joinAll ((sinceClear calls).filterMap Occurrence.toFilter?)
  condition : chain.condition = joinAll ((sinceClear calls).filterMap Occurrence.toCondition?)
  keyCondition :
    chain.keyCondition = joinAll ((sinceClear calls).filterMap Occurrence.toKeyCondition?)
  /-- Of the values under one name the last counts. -/
  key : ∀ name,
    chain.key.find? name = ((sinceClear calls).filterMap (Occurrence.keyValue? name)).getLast?
  pending : chain.pending = pendingAfter calls

section Steps

variable
  {σ : Type}
  {table : Table σ}
  {chain : ChainState}
  {calls : List BuilderCall}
  {call : BuilderCall}

theorem filter_call
    (pending : chain.pending = pendingAfter calls)
    (keeps : call.isClear = false) :
    (table.call chain call).filter =
      joinNext chain.filter (Occurrence.toFilter? ⟨calls, call⟩) := by
  cases call with
  | clear => cases keeps
  | filter added =>
      rw [Occurrence.toFilter?, ← pending]
      rfl
  | _ => rfl

theorem condition_call
    (pending : chain.pending = pendingAfter calls)
    (keeps : call.isClear = false) :
    (table.call chain call).condition =
      joinNext chain.condition (Occurrence.toCondition? ⟨calls, call⟩) := by
  cases call with
  | clear => cases keeps
  | condition added =>
      rw [Occurrence.toCondition?, ← pending]
      rfl
  | _ => rfl

theorem keyCondition_call (keeps : call.isClear = false) :
    (table.call chain call).keyCondition =
      joinNext chain.keyCondition (Occurrence.toKeyCondition? ⟨calls, call⟩) := by
  cases call with
  | clear => cases keeps
  | _ => rfl

theorem find?_key_call
    (keeps : call.isClear = false)
    (name : String) :
    (table.call chain call).key.find? name =
      (Occurrence.keyValue? name ⟨calls, call⟩).or (chain.key.find? name) := by
  cases call with
  | clear => cases keeps
  | key other value =>
      change (chain.key.insert other value).find? name = _
      rw [NameMap.find?_insert, Occurrence.keyValue?]
      by_cases same : name = other
      · simp [same]
      · simp [same, Ne.symm same]
  | _ => rfl

theorem pending_call
    (pending : chain.pending = pendingAfter calls) :
    (table.call chain call).pending = pendingAfter (calls ++ [call]) := by
  cases call with
  | filter | condition | or | and | clear =>
      rw [pendingAfter_concat_of_turns rfl]
      rfl
  | _ =>
      rw [pendingAfter_concat rfl, ← pending]
      rfl

/-- A new chain has collected nothing. -/
theorem collects_chain (table : Table σ) : table.chain.Collects [] :=
  ⟨rfl, rfl, rfl, fun _ => NameMap.find?_empty _, rfl⟩

/-- Each call adds what it says to what the chain has collected. -/
theorem Collects.next
    (collected : chain.Collects calls)
    (table : Table σ)
    (call : BuilderCall) :
    (table.call chain call).Collects (calls ++ [call]) := by
  have pending : (table.call chain call).pending = pendingAfter (calls ++ [call]) :=
    pending_call collected.pending
  cases clears : call.isClear with
  | true =>
      cases call with
      | clear =>
          -- What the chain had collected before does not matter.
          refine ⟨?_, ?_, ?_, ?_, pending⟩
          · rw [sinceClear_clear]
            rfl
          · rw [sinceClear_clear]
            rfl
          · rw [sinceClear_clear]
            rfl
          · intro name
            rw [sinceClear_clear]
            exact NameMap.find?_empty name
      | _ => cases clears
  | false =>
      have grown {β : Type} (read : Occurrence → Option β) :=
        filterMap_sinceClear_concat clears read calls
      refine ⟨?_, ?_, ?_, ?_, pending⟩
      · rw [filter_call collected.pending clears, grown, joinAll_append, collected.filter]
      · rw [condition_call collected.pending clears, grown, joinAll_append, collected.condition]
      · rw [keyCondition_call clears, grown, joinAll_append, collected.keyCondition]
      · intro name
        rw [find?_key_call clears, grown, List.getLast?_append, collected.key]
        cases Occurrence.keyValue? name ⟨calls, call⟩ <;> rfl

/-- However a chain was built, it holds what its calls since the last `clear` said, the
filter and the write condition joined as the calls before each of them had left it
pending.  A table without defaults of its own begins with `ChainState.start`, and so does
every `clear` there. -/
theorem build_collects
    (table : Table σ)
    (calls : List BuilderCall) :
    (table.build calls).Collects calls := by
  induction calls using List.reverseRecOn with
  | nil => exact collects_chain table
  | append_singleton calls call ih =>
      rw [Table.build, List.foldl_append]
      exact ih.next table call

/-- A condition that is joined in its own way leaves OR pending for the next one. -/
example (table : Table σ) (first second : Condition) :
    (table.build [.or, .conditionWith .and first, .condition second]).condition =
      some (.joined .or first second) :=
  rfl

end Steps

end ChainState

end ItemTable
