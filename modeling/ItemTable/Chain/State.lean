import ItemTable.Cursor
import ItemTable.Document

/-!
# Chains

A chain collects, call by call, what a request is to say.  Conditions are joined
to those that are there already: key conditions with AND, filters and write
conditions with AND or with OR.  A call of `setOr` counts for the next filter or
write condition only.

A chain becomes the document of an operation only if the operation has a place
for everything that the chain constrains, so that no constraint gets lost.
-/

namespace ItemTable

/-- What a chain has collected. -/
structure ChainState where
  keyCondition : Option Condition
  filter : Option Condition
  /-- What a write depends on. -/
  condition : Option Condition
  projection : List String
  /-- How the next filter or write condition is joined. -/
  pending : Connective
  limit : Option Nat
  ascending : Bool
  consistent : Bool
  capacity : CapacityDetail
  index : Option String
  key : Item
  cursor : Cursor
deriving DecidableEq

namespace ChainState

/-- A chain that says nothing. -/
def start : ChainState where
  keyCondition := none
  filter := none
  condition := none
  projection := []
  pending := .and
  limit := none
  ascending := true
  consistent := false
  capacity := .none
  index := none
  key := ∅
  cursor := .exhausted

/-! ## Collecting -/

/-- Join a condition to the one that is there. -/
def join (present : Option Condition) (connective : Connective) (condition : Condition) :
    Option Condition :=
  match present with
  | some first => some (.joined connective first condition)
  | none => some condition

/-- Join a key condition with AND. -/
def addKeyCondition (state : ChainState) (condition : Condition) : ChainState :=
  { state with keyCondition := join state.keyCondition .and condition }

/-- Join a filter in the pending way, which is used up. -/
def addFilter (state : ChainState) (condition : Condition) : ChainState :=
  { state with filter := join state.filter state.pending condition, pending := .and }

/-- Join a filter in the given way. -/
def addFilterWith
    (state : ChainState)
    (connective : Connective)
    (condition : Condition) :
    ChainState :=
  { state with filter := join state.filter connective condition }

/-- Join a write condition in the pending way, which is used up. -/
def addCondition (state : ChainState) (condition : Condition) : ChainState :=
  { state with condition := join state.condition state.pending condition, pending := .and }

/-- Join a write condition in the given way. -/
def addConditionWith
    (state : ChainState)
    (connective : Connective)
    (condition : Condition) :
    ChainState :=
  { state with condition := join state.condition connective condition }

/-- Join the next filter or write condition with OR. -/
def setOr (state : ChainState) : ChainState :=
  { state with pending := .or }

/-- Join the next filter or write condition with AND. -/
def setAnd (state : ChainState) : ChainState :=
  { state with pending := .and }

/-- Add entries to the projection. -/
def addProjection (state : ChainState) (entries : List String) : ChainState :=
  { state with projection := state.projection ++ entries }

/-- Set an attribute of the key. -/
def setKey (state : ChainState) (name : String) (value : AttributeValue) : ChainState :=
  { state with key := state.key.insert name value }

/-- Move the cursor. -/
def withCursor (state : ChainState) (cursor : Cursor) : ChainState :=
  { state with cursor }

/-! ## Documents -/

/-- Fail if the operation has no place for a part that is there. -/
def requirePlace
    (present : Bool)
    (operation : Operation)
    (accepted : Bool)
    (part : Constraint) :
    Except ChainError Unit :=
  if present && !accepted then
    .error (.invalidRequest (.notAccepted operation part))
  else
    .ok ()

/-- Fail if a read has a limit that no request can carry. -/
def checkLimit (state : ChainState) (operation : Operation) : Except ChainError Unit :=
  match state.limit with
  | none => .ok ()
  | some limit =>
      if !operation.isRead then
        .ok ()
      else if limit = 0 then
        .error (.invalidRequest .zeroLimit)
      else if limit ≤ RequestFault.largestLimit then
        .ok ()
      else
        .error (.invalidRequest (.limitTooLarge limit))

/-- Fail if the chain is no request of the operation. -/
def check (state : ChainState) (operation : Operation) : Except ChainError Unit := do
  requirePlace state.keyCondition.isSome operation (operation = .query) .keyCondition
  requirePlace state.filter.isSome operation operation.isRead .filter
  requirePlace state.condition.isSome operation operation.isWrite .writeCondition
  if operation = .query ∧ state.keyCondition.isNone then
    .error (.invalidKeyCondition .missing)
  state.checkLimit operation

/-- The projection of a document.  A read that only counts has none. -/
def projectionField (state : ChainState) (select : Option Select) : Option ProjectionField :=
  if state.projection.isEmpty || select = some .count then
    none
  else
    some (.raw state.projection)

/-- The document of a query or a scan. -/
def readDocument (state : ChainState) (document : Document) (select : Option Select) : Document :=
  { document with
    index := state.index
    filter := state.filter.map .raw
    projection := state.projectionField select
    limit := state.limit
    select
    consistent := some state.consistent
    start := state.cursor.start }

/-- The document of an operation on a table. -/
def document
    (state : ChainState)
    (tableName : String)
    (operation : Operation)
    (select : Option Select) :
    Except ChainError Document := do
  state.check operation
  let document :=
    { Document.ofTable tableName with
      capacity := if state.capacity.isReported then some state.capacity else none }
  return match operation with
    | .getItem =>
        { document with
          key := state.key
          projection := state.projectionField select
          consistent := some state.consistent }
    | .putItem =>
        { document with item := state.key, condition := state.condition.map .raw }
    | .deleteItem =>
        { document with key := state.key, condition := state.condition.map .raw }
    | .query =>
        { state.readDocument document select with
          keyCondition := state.keyCondition.map .raw
          forward := some state.ascending }
    | .scan => state.readDocument document select

end ChainState

end ItemTable
