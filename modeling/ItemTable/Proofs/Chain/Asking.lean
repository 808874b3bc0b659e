import ItemTable.Proofs.Chain.Acceptance
import ItemTable.Proofs.Memory.Listing
import ItemTable.Proofs.Service.Course

/-!
# What a read asks of a memory

The document of a read, and so the request for each of its pages, is known from the
chain.  A memory answers it as the answer to the trees of the chain says, whether the
items are asked for or only their number.
-/

namespace ItemTable

open PlaceholderTable (projectedPaths)

theorem Condition.IsKeyCondition.isKeyOperand
    {condition : Condition}
    (isKey : condition.IsKeyCondition) :
    ∀ operand ∈ condition.operands, operand.IsKeyOperand := by
  induction isKey with
  | compare _ isLeft isRight =>
      rintro _ (_ | ⟨_, _ | ⟨_, ⟨⟩⟩⟩)
      · exact isLeft
      · exact isRight
  | between isValue isLow isHigh =>
      rintro _ (_ | ⟨_, _ | ⟨_, _ | ⟨_, ⟨⟩⟩⟩⟩)
      · exact isValue
      · exact isLow
      · exact isHigh
  | beginsWith areArguments => exact areArguments
  | and _ _ leftIH rightIH =>
      intro operand member
      rcases List.mem_append.mp member with isLeft | isRight
      · exact leftIH operand isLeft
      · exact rightIH operand isRight

/-- There are no indexes in key conditions. -/
theorem Condition.IsKeyCondition.isBounded
    {condition : Condition}
    (isKey : condition.IsKeyCondition) :
    condition.isBounded := by
  apply List.all_eq_true.mpr
  intro operand member
  cases isKey.isKeyOperand operand member <;> rfl

namespace ChainState

/-- What the expressions of a read say; a read that only counts has no projection. -/
def readTerms (chain : ChainState) (select : Option Select) : ReadTerms where
  keyCondition := chain.keyCondition
  filter := chain.filter
  paths := if select = some .count then [] else projectedPaths chain.projection

/-- The document of a read. -/
def asking
    (chain : ChainState)
    (name : String)
    (kind : ReadKind)
    (select : Option Select) :
    Document :=
  let document :=
    chain.readDocument
      { Document.ofTable name with
        capacity := if chain.capacity.isReported then some chain.capacity else none }
      select
  match kind with
  | .query =>
      { document with
        keyCondition := chain.keyCondition.map .raw
        forward := some chain.ascending }
  | .scan => document

/-- The request for the first page of a read. -/
def pageRequest
    (chain : ChainState)
    (name : String)
    (kind : ReadKind)
    (select : Option Select) :
    PageRequest :=
  let compiled := (chain.readTerms select).write (chain.asking name kind select)
  match kind with
  | .query => .query (Memory.queryRequest compiled)
  | .scan => .scan (Memory.pageRequest compiled)

variable
    {chain : ChainState}
    {kind : ReadKind}
    {select : Option Select}

theorem Fits.document_eq
    (fits : chain.Fits kind.operation)
    (name : String)
    (select : Option Select) :
    chain.document name kind.operation select = .ok (chain.asking name kind select) := by
  rw [document, check_eq_ok_iff.mpr fits, ok_bind]
  cases kind <;> rfl

theorem Fits.isSome_keyCondition
    (fits : chain.Fits kind.operation) :
    chain.keyCondition.isSome = (kind == .query) := by
  have isQuery := fits.keyCondition
  cases kind with
  | query => exact isQuery.mpr rfl
  | scan => exact Bool.eq_false_iff.mpr fun isSome => nomatch isQuery.mp isSome

/-- A document has the projection of its chain, if any, to be rendered. -/
theorem projectionField_cases (chain : ChainState) (select : Option Select) :
    chain.projectionField select = none ∧ (chain.readTerms select).paths = [] ∨
      ∃ entries,
        chain.projectionField select = some (.raw entries) ∧
          (chain.readTerms select).paths = projectedPaths entries := by
  rw [projectionField, readTerms]
  by_cases counts : select = some .count
  · simp [counts]
  · cases chain.projection with
    | nil => exact .inl ⟨rfl, by simp [counts]; rfl⟩
    | cons entry entries => exact .inr ⟨_, by simp [counts]; rfl, by simp [counts]⟩

/-- The document of a read poses what the chain says. -/
theorem Fits.poses
    (fits : chain.Fits kind.operation)
    (name : String)
    (select : Option Select) :
    (chain.asking name kind select).Poses (chain.readTerms select) := by
  have projection := chain.projectionField_cases select
  have keyed := fits.isSome_keyCondition
  cases kind with
  | query => exact ⟨rfl, rfl, rfl, projection, rfl, rfl⟩
  | scan =>
      refine ⟨?_, rfl, rfl, projection, rfl, rfl⟩
      rw [readTerms, Option.not_isSome_iff_eq_none.mp (Bool.eq_false_iff.mp keyed)]
      rfl

/-- A read that does not refuse a chain makes the request for its pages. -/
theorem makes_pageRequest
    (accepted : ¬chain.Refuses kind.operation)
    (name : String)
    (select : Option Select) :
    chain.document name kind.operation select = .ok (chain.asking name kind select) ∧
      (chain.asking name kind select).Makes kind (chain.pageRequest name kind select) := by
  rcases not_refuses_iff.mp accepted with ⟨fits, inLanguage⟩
  have isRead : kind.operation.isRead := by
    cases kind <;> rfl
  have done := (fits.poses name select).compile fun tree isKey =>
    Condition.checkKey_eq_ok_iff.mpr (inLanguage tree isKey)
  have limited (limit : Nat) (asked : limit ∈ chain.limit) :=
    (fits.limit isRead limit asked).2
  refine ⟨fits.document_eq name select, ?_⟩
  cases kind with
  | query =>
      apply Document.Makes.query done
      rw [Document.toQueryRequest, Memory.toScanRequest_eq limited]
      rfl
  | scan => exact .scan done (Memory.toScanRequest_eq limited)

theorem paths_readTerms (chain : ChainState) (select : Option Select) :
    ∀ path ∈ (chain.readTerms select).paths, path.isRooted ∧ path.isBounded := by
  intro path member
  rw [readTerms] at member
  dsimp only at member
  split at member
  · cases member
  · rcases List.mem_map.mp member with ⟨name, -, rfl⟩
    exact ⟨Path.isRooted_parse name, Path.isBounded_parse name⟩

/-- All indexes of a read are list indexes if those of its filter are. -/
theorem bounded_readTerms
    (inLanguage : ∀ tree ∈ chain.keyCondition, tree.IsKeyCondition)
    (bounded : ∀ filter ∈ chain.filter, filter.isBounded)
    (select : Option Select) :
    (chain.readTerms select).Bounded := by
  refine ⟨?_, chain.paths_readTerms select⟩
  intro condition member
  rcases List.mem_append.mp member with isKey | isFilter
  · exact (inLanguage condition (Option.mem_toList.mp isKey)).isBounded
  · exact bounded condition (Option.mem_toList.mp isFilter)

theorem checkSelect_eq_ok
    (counts : select = none ∨ select = some .count)
    (document : Document) :
    Memory.checkSelect select ((chain.readTerms select).write document).projectionText? =
      .ok () := by
  rcases counts with rfl | rfl <;> rfl

theorem positive_limit
    (accepted : ¬chain.Refuses kind.operation) :
    ∀ limit ∈ chain.limit, 0 < limit := by
  intro limit asked
  have isRead : kind.operation.isRead := by
    cases kind <;> rfl
  exact ((not_refuses_iff.mp accepted).1.limit isRead limit asked).1

/-- A memory answers the request for each page of a read. -/
theorem page_eq
    (accepted : ¬chain.Refuses kind.operation)
    (bounded : ∀ filter ∈ chain.filter, filter.isBounded)
    (counts : select = none ∨ select = some .count)
    (name : String)
    (key : Item)
    (memory : Memory) :
    Memory.service.page ((chain.pageRequest name kind select).withStart key) memory =
      ((chain.readTerms select).answer ((chain.asking name kind select).withStart key) memory,
        memory) := by
  rcases not_refuses_iff.mp accepted with ⟨fits, inLanguage⟩
  have valid := bounded_readTerms inLanguage bounded select
  have positive := positive_limit accepted
  have keyed := fits.isSome_keyCondition
  cases kind with
  | query =>
      rcases Option.isSome_iff_exists.mp keyed with ⟨condition, isQuery⟩
      have answered := @Memory.query_eq (chain.readTerms select)
        ((chain.asking name .query select).withStart key) condition valid isQuery positive
        (checkSelect_eq_ok counts _) memory
      exact congrArg (·, memory) answered
  | scan =>
      have isScan := Option.not_isSome_iff_eq_none.mp (Bool.eq_false_iff.mp keyed)
      have answered := @Memory.scan_eq (chain.readTerms select)
        ((chain.asking name .scan select).withStart key) valid isScan positive
        (checkSelect_eq_ok counts _) memory
      exact congrArg (·, memory) answered

end ChainState

end ItemTable
