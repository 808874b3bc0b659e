import ItemTable.Chain.Terminal
import ItemTable.Proofs.Condition.Made

/-!
# Building chains

A chain is built by calls that each add to it or set one thing.  Conditions that are
joined from conditions that were made could have been made as well, so a chain never has
others, however it was built.
-/

namespace ItemTable

/-- A call that builds a chain. -/
inductive BuilderCall where
  | keyCondition (condition : Condition)
  | filter (condition : Condition)
  | filterWith (connective : Connective) (condition : Condition)
  | condition (condition : Condition)
  | conditionWith (connective : Connective) (condition : Condition)
  | or
  | and
  | projection (entries : List String)
  | limit (limit : Nat)
  | ascending (ascending : Bool)
  | consistent (consistent : Bool)
  | capacity (detail : CapacityDetail)
  | index (name : String)
  | key (name : String) (value : AttributeValue)
  | clear
  /-- A call that ran the chain has moved its cursor. -/
  | cursor (cursor : Cursor)

/-- The condition that a call adds. -/
def BuilderCall.added? : BuilderCall → Option Condition
  | keyCondition added | filter added | filterWith _ added | condition added
  | conditionWith _ added => some added
  | _ => none

namespace Table

variable {σ : Type}

/-- The chain after a call. -/
def call (table : Table σ) (chain : ChainState) : BuilderCall → ChainState
  | .keyCondition condition => chain.addKeyCondition condition
  | .filter condition => chain.addFilter condition
  | .filterWith connective condition => chain.addFilterWith connective condition
  | .condition condition => chain.addCondition condition
  | .conditionWith connective condition => chain.addConditionWith connective condition
  | .or => chain.setOr
  | .and => chain.setAnd
  | .projection entries => chain.addProjection entries
  | .limit limit => { chain with limit := some limit }
  | .ascending ascending => { chain with ascending }
  | .consistent consistent => { chain with consistent }
  | .capacity detail => { chain with capacity := detail }
  | .index name => { chain with index := some name }
  | .key name value => chain.setKey name value
  | .clear => table.chain
  | .cursor cursor => chain.withCursor cursor

/-- The chain that some calls build from a new one. -/
def build (table : Table σ) (calls : List BuilderCall) : ChainState :=
  calls.foldl table.call table.chain

end Table

namespace ChainState

/-- All conditions of a chain were made with the constructors. -/
structure Made (chain : ChainState) : Prop where
  keyCondition : ∀ condition ∈ chain.keyCondition, condition.Made
  filter : ∀ condition ∈ chain.filter, condition.Made
  condition : ∀ condition ∈ chain.condition, condition.Made

theorem made_join
    {present : Option Condition}
    {condition : Condition}
    (earlier : ∀ first ∈ present, first.Made)
    (made : condition.Made)
    (connective : Connective) :
    ∀ joined ∈ join present connective condition, joined.Made := by
  cases present with
  | none =>
      rintro _ ⟨⟩
      exact made
  | some first =>
      rintro _ ⟨⟩
      cases connective with
      | and => exact .and (earlier first rfl) made
      | or => exact .or (earlier first rfl) made

theorem made_chain {σ : Type} (table : Table σ) : table.chain.Made :=
  ⟨nofun, nofun, nofun⟩

/-- A call with a condition that was made adds no other. -/
theorem Made.call
    {σ : Type}
    {chain : ChainState}
    {call : BuilderCall}
    (made : chain.Made)
    (adds : ∀ condition ∈ call.added?, condition.Made)
    (table : Table σ) :
    (table.call chain call).Made := by
  rcases made with ⟨keyCondition, filter, condition⟩
  cases call with
  | keyCondition added =>
      exact ⟨made_join keyCondition (adds added rfl) _, filter, condition⟩
  | filter added | filterWith connective added =>
      exact ⟨keyCondition, made_join filter (adds added rfl) _, condition⟩
  | condition added | conditionWith connective added =>
      exact ⟨keyCondition, filter, made_join condition (adds added rfl) _⟩
  | clear => exact made_chain table
  | or | and | projection | limit | ascending | consistent | capacity | index | key | cursor =>
      exact ⟨keyCondition, filter, condition⟩

/-- A chain that is built with conditions that were made has no others. -/
theorem made_build
    {σ : Type}
    {calls : List BuilderCall}
    (adds : ∀ call ∈ calls, ∀ condition ∈ call.added?, condition.Made)
    (table : Table σ) :
    (table.build calls).Made := by
  have steps {chain : ChainState} (made : chain.Made) : (calls.foldl table.call chain).Made := by
    induction calls generalizing chain with
    | nil => exact made
    | cons call calls ih =>
        rcases List.forall_mem_cons.mp adds with ⟨first, others⟩
        exact ih others (made.call first table)
  exact steps (made_chain table)

end ChainState

end ItemTable
