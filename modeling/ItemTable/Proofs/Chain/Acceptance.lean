import ItemTable.Chain.State
import ItemTable.Proofs.Document.Conveying
import ItemTable.Proofs.KeyCondition.Grammar
import Mathlib.Algebra.Group.Nat.Defs

/-!
# Chains that an operation accepts

An operation refuses a chain that constrains something for which it has no place, a
query also one that does not say with which key, and a read one with a limit that no
request can carry.  Every other chain becomes a document with all its conditions.
-/

namespace ItemTable

namespace ChainState

/-! ## Chains that an operation refuses -/

/-- Why an operation refuses a chain. -/
inductive Refuses (chain : ChainState) : Operation → Prop
  | keyCondition
      {operation : Operation}
      (constrained : chain.keyCondition ≠ none)
      (noQuery : operation ≠ .query) :
      Refuses chain operation
  | filter
      {operation : Operation}
      (constrained : chain.filter ≠ none)
      (noQuery : operation ≠ .query)
      (noScan : operation ≠ .scan) :
      Refuses chain operation
  | writeCondition
      {operation : Operation}
      (constrained : chain.condition ≠ none)
      (noPut : operation ≠ .putItem)
      (noDelete : operation ≠ .deleteItem) :
      Refuses chain operation
  | noKeyCondition
      (unconstrained : chain.keyCondition = none) :
      Refuses chain .query
  | noKeyLanguage
      {tree : Condition}
      (constrained : chain.keyCondition = some tree)
      (foreign : ¬tree.IsKeyCondition) :
      Refuses chain .query
  | limit
      {operation : Operation}
      {limit : Nat}
      (isRead : operation = .query ∨ operation = .scan)
      (limited : chain.limit = some limit)
      (outside : limit = 0 ∨ 2 ^ 31 - 1 < limit) :
      Refuses chain operation

/-- An operation has a place for all that a chain constrains. -/
structure Fits (chain : ChainState) (operation : Operation) : Prop where
  keyCondition : chain.keyCondition.isSome ↔ operation = .query
  filter : chain.filter.isSome → operation.isRead
  condition : chain.condition.isSome → operation.isWrite
  limit : operation.isRead →
    ∀ limit ∈ chain.limit, 0 < limit ∧ limit ≤ RequestFault.largestLimit

variable {chain : ChainState} {operation : Operation}

theorem requirePlace_eq_ok_iff
    {present accepted : Bool}
    {part : Constraint} :
    requirePlace present operation accepted part = .ok () ↔ (present → accepted) := by
  cases present <;> cases accepted <;> simp [requirePlace]

theorem checkLimit_eq_ok_iff :
    chain.checkLimit operation = .ok () ↔
      (operation.isRead →
        ∀ limit ∈ chain.limit, 0 < limit ∧ limit ≤ RequestFault.largestLimit) := by
  rw [checkLimit]
  cases chain.limit with
  | none => exact ⟨fun _ _ => nofun, fun _ => rfl⟩
  | some limit =>
      cases operation.isRead with
      | false => exact ⟨fun _ => nofun, fun _ => rfl⟩
      | true =>
          simp only [Bool.not_true, Bool.false_eq_true, if_false, Option.mem_def, Option.some.injEq,
            forall_eq', true_implies]
          split
          · rename_i zero
            constructor
            · nofun
            · rintro ⟨positive, -⟩
              exact absurd zero (Nat.ne_of_gt positive)
          · rename_i positive
            split
            · rename_i small
              exact ⟨fun _ => ⟨Nat.pos_of_ne_zero positive, small⟩, fun _ => rfl⟩
            · rename_i large
              constructor
              · nofun
              · rintro ⟨-, small⟩
                exact absurd small large

/-- Whether a query has a key condition. -/
def checkAsked (chain : ChainState) (operation : Operation) : Except ChainError Unit :=
  if operation = .query ∧ chain.keyCondition.isNone then
    .error (.invalidKeyCondition .missing)
  else
    .ok ()

theorem checkAsked_eq_ok_iff :
    chain.checkAsked operation = .ok () ↔
      (operation = .query → chain.keyCondition.isSome) := by
  rw [checkAsked]
  cases chain.keyCondition with
  | none => by_cases isQuery : operation = .query <;> simp [isQuery]
  | some tree => simp

theorem check_eq_ok_iff : chain.check operation = .ok () ↔ chain.Fits operation := by
  -- Whether a query has a key condition is asked between the other checks.
  have steps : chain.check operation = (do
      requirePlace chain.keyCondition.isSome operation (operation = .query) .keyCondition
      requirePlace chain.filter.isSome operation operation.isRead .filter
      requirePlace chain.condition.isSome operation operation.isWrite .writeCondition
      chain.checkAsked operation
      chain.checkLimit operation) := by
    rw [check, checkAsked]
    split <;> rfl
  simp only [steps, bind_unit_eq_ok, requirePlace_eq_ok_iff, checkAsked_eq_ok_iff,
    checkLimit_eq_ok_iff, decide_eq_true_iff]
  constructor
  · rintro ⟨keyCondition, filter, condition, isAsked, limit⟩
    exact ⟨⟨keyCondition, isAsked⟩, filter, condition, limit⟩
  · rintro ⟨keyCondition, filter, condition, limit⟩
    exact ⟨keyCondition.mp, filter, condition, keyCondition.mpr, limit⟩

/-- An operation refuses the chains that do not fit, and queries refuse foreign key
conditions as well. -/
theorem not_refuses_iff :
    ¬chain.Refuses operation ↔
      chain.Fits operation ∧ ∀ tree ∈ chain.keyCondition, tree.IsKeyCondition := by
  constructor
  · intro accepted
    have queried (isSome : chain.keyCondition.isSome) : operation = .query := by
      by_contra noQuery
      exact accepted (.keyCondition (Option.isSome_iff_ne_none.mp isSome) noQuery)
    constructor
    · constructor
      · refine ⟨queried, ?_⟩
        rintro rfl
        rw [Option.isSome_iff_ne_none]
        exact fun unconstrained => accepted (.noKeyCondition unconstrained)
      · intro isSome
        by_contra noRead
        apply accepted
        refine .filter (Option.isSome_iff_ne_none.mp isSome) ?_ ?_ <;>
          · rintro rfl
            exact noRead rfl
      · intro isSome
        by_contra noWrite
        apply accepted
        refine .writeCondition (Option.isSome_iff_ne_none.mp isSome) ?_ ?_ <;>
          · rintro rfl
            exact noWrite rfl
      · intro isRead limit limited
        have read : operation = .query ∨ operation = .scan := by
          cases operation <;> first | exact .inl rfl | exact .inr rfl | cases isRead
        by_contra outside
        apply accepted (.limit read limited _)
        change ¬(0 < limit ∧ limit ≤ 2 ^ 31 - 1) at outside
        omega
    · intro tree constrained
      by_contra foreign
      have isQuery := queried (Option.isSome_of_eq_some constrained)
      subst isQuery
      exact accepted (.noKeyLanguage constrained foreign)
  · rintro ⟨fits, inLanguage⟩ refuses
    cases refuses with
    | keyCondition constrained noQuery =>
        exact noQuery (fits.keyCondition.mp (Option.isSome_iff_ne_none.mpr constrained))
    | filter constrained noQuery noScan =>
        have isRead := fits.filter (Option.isSome_iff_ne_none.mpr constrained)
        cases operation <;> first | exact noQuery rfl | exact noScan rfl | cases isRead
    | writeCondition constrained noPut noDelete =>
        have isWrite := fits.condition (Option.isSome_iff_ne_none.mpr constrained)
        cases operation <;> first | exact noPut rfl | exact noDelete rfl | cases isWrite
    | noKeyCondition unconstrained =>
        have isSome := fits.keyCondition.mpr rfl
        rw [unconstrained] at isSome
        cases isSome
    | noKeyLanguage constrained foreign => exact foreign (inLanguage _ constrained)
    | limit isRead limited outside =>
        have read : operation.isRead := by
          rcases isRead with rfl | rfl <;> rfl
        have inside := fits.limit read _ limited
        change _ ∧ _ ≤ 2 ^ 31 - 1 at inside
        omega

/-! ## Documents of chains -/

theorem document_eq_error
    (unfit : ¬chain.Fits operation)
    (name : String)
    (select : Option Select) :
    ∃ error, chain.document name operation select = .error error := by
  rw [document]
  cases checked : chain.check operation with
  | ok _ => exact absurd (check_eq_ok_iff.mp checked) unfit
  | error error => exact ⟨error, rfl⟩

theorem Fits.keyCondition_eq_none
    (fits : chain.Fits operation)
    (noQuery : operation ≠ .query) :
    chain.keyCondition = none := by
  rw [← Option.not_isSome_iff_eq_none, fits.keyCondition]
  exact noQuery

theorem Fits.filter_eq_none
    (fits : chain.Fits operation)
    (noRead : operation.isRead = false) :
    chain.filter = none := by
  rw [← Option.not_isSome_iff_eq_none]
  intro isSome
  rw [fits.filter isSome] at noRead
  cases noRead

theorem Fits.condition_eq_none
    (fits : chain.Fits operation)
    (noWrite : operation.isWrite = false) :
    chain.condition = none := by
  rw [← Option.not_isSome_iff_eq_none]
  intro isSome
  rw [fits.condition isSome] at noWrite
  cases noWrite

/-- A chain that fits becomes a document with all its conditions. -/
theorem Fits.exists_document
    (fits : chain.Fits operation)
    (name : String)
    (select : Option Select) :
    ∃ document,
      chain.document name operation select = .ok document ∧
        document.Asks chain.keyCondition chain.filter chain.condition ∧
        (operation.isRead → document.limit = chain.limit) := by
  rw [document, check_eq_ok_iff.mpr fits, ok_bind]
  cases operation with
  | getItem =>
      rw [fits.keyCondition_eq_none nofun, fits.filter_eq_none rfl, fits.condition_eq_none rfl]
      exact ⟨_, rfl, ⟨rfl, rfl, rfl, rfl, rfl⟩, nofun⟩
  | putItem =>
      rw [fits.keyCondition_eq_none nofun, fits.filter_eq_none rfl]
      exact ⟨_, rfl, ⟨rfl, rfl, rfl, rfl, rfl⟩, nofun⟩
  | deleteItem =>
      rw [fits.keyCondition_eq_none nofun, fits.filter_eq_none rfl]
      exact ⟨_, rfl, ⟨rfl, rfl, rfl, rfl, rfl⟩, nofun⟩
  | query =>
      rw [fits.condition_eq_none rfl]
      exact ⟨_, rfl, ⟨rfl, rfl, rfl, rfl, rfl⟩, fun _ => rfl⟩
  | scan =>
      rw [fits.keyCondition_eq_none nofun, fits.condition_eq_none rfl]
      exact ⟨_, rfl, ⟨rfl, rfl, rfl, rfl, rfl⟩, fun _ => rfl⟩

end ChainState

end ItemTable
