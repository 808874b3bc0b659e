import ItemTable.Condition.Evaluation
import ItemTable.Proofs.NameMap

/-!
# Ranges and memberships in full

A range stands for two comparisons and a membership for equalities with its candidates.
Both are evaluated from left to right and stop as soon as the outcome is settled, so the
conditions that are written out hold where the short ones hold, and fail where these fail
and with the same error.  Only an upper end that is missing makes a difference: a range
looks for it before it compares.
-/

namespace ItemTable.Condition

/-- The comparisons that a range stands for. -/
def inBounds (value low high : Operand) : Condition :=
  and (compare value .greaterOrEqual low) (compare value .lessOrEqual high)

/-- The equalities that a membership stands for, joined from left to right. -/
def equalOne (value first : Operand) (candidates : List Operand) : Condition :=
  candidates.foldl
    (fun joined candidate => or joined (compare value .equal candidate))
    (compare value .equal first)

variable (item : Item) (value : Operand)

/-! ## Ranges -/

/-- A range is its two comparisons as long as the upper end is there. -/
theorem holds_between (low high : Operand) :
    (between value low high).holds item =
      if (high.resolve? item).isSome then (inBounds value low high).holds item else .ok false := by
  rw [inBounds, and, holds, holds, holds, holds]
  cases value.resolve? item <;> cases low.resolve? item <;> cases high.resolve? item <;> rfl

/-- A range of which something is missing does not hold. -/
theorem holds_between_of_missing
    {value low high : Operand}
    (missing :
      value.resolve? item = none ∨ low.resolve? item = none ∨ high.resolve? item = none) :
    (between value low high).holds item = .ok false := by
  rw [holds]
  rcases missing with missing | missing | missing <;> rw [missing]
  · cases value.resolve? item <;> rfl
  · cases value.resolve? item <;> cases low.resolve? item <;> rfl

/-! ## Memberships -/

theorem holds_or (left right : Condition) :
    (or left right).holds item =
      left.holds item >>= fun settled => if settled then .ok true else right.holds item := by
  rw [or, holds]
  rfl

theorem holds_or_assoc (first second third : Condition) :
    (or (or first second) third).holds item = (or first (or second third)).holds item := by
  rw [holds_or, holds_or, holds_or, holds_or]
  cases first.holds item with
  | error error => rfl
  | ok settled => cases settled <;> rfl

theorem holds_among_nil : (among value []).holds item = .ok false := by
  rw [holds]
  cases value.resolve? item <;> rfl

/-- A membership is an equality with the first candidate, or one among the others. -/
theorem holds_among_cons (candidate : Operand) (candidates : List Operand) :
    (among value (candidate :: candidates)).holds item =
      (or (compare value .equal candidate) (among value candidates)).holds item := by
  rw [holds_or, holds, holds, holds]
  cases value.resolve? item with
  | none => rfl
  | some found =>
      simp only [equalsOne]
      cases candidate.resolve? item <;> rfl

/-- Equalities joined to a condition one after the other are a membership joined to it. -/
theorem holds_foldl_or (candidates : List Operand) (start : Condition) :
    (candidates.foldl (fun joined candidate => or joined (compare value .equal candidate))
        start).holds item =
      (or start (among value candidates)).holds item := by
  induction candidates generalizing start with
  | nil =>
      rw [List.foldl_nil, holds_or, holds_among_nil]
      cases start.holds item with
      | error error => rfl
      | ok settled => cases settled <;> rfl
  | cons candidate candidates ih =>
      rw [List.foldl_cons, ih, holds_or_assoc, holds_or item start, holds_or item start,
        holds_among_cons]

/-- A membership is its equalities. -/
theorem holds_among (first : Operand) (candidates : List Operand) :
    (among value (first :: candidates)).holds item =
      (equalOne value first candidates).holds item := by
  rw [holds_among_cons, equalOne, holds_foldl_or]

/-! ## Both -/

/-- A range whose upper end is there is evaluated like its comparisons, and a membership
like its equalities, whether they hold or not or cannot be evaluated.  A range without one
of its parts does not hold, nor does a membership without candidates. -/
theorem holds_written_out
    (low high first : Operand)
    (candidates : List Operand) :
    ((high.resolve? item).isSome →
        (between value low high).holds item = (inBounds value low high).holds item) ∧
      (∀ literal, ((Operand.value literal).resolve? item).isSome) ∧
      (value.resolve? item = none ∨ low.resolve? item = none ∨ high.resolve? item = none →
        (between value low high).holds item = .ok false) ∧
      (among value (first :: candidates)).holds item =
        (equalOne value first candidates).holds item ∧
      (among value []).holds item = .ok false := by
  refine ⟨?_, ?_, ?_, ?_, ?_⟩
  · intro present
    rw [holds_between, if_pos present]
  · intro literal
    rfl
  · exact holds_between_of_missing item
  · exact holds_among item value first candidates
  · exact holds_among_nil item value

/-- A lower end that is no number spoils the range before the upper end is looked at, and a
candidate that is none spoils the membership before the one that is met. -/
theorem holds_written_out_seven :
    let item : Item := .ofList [("page", .number "7")]
    let page : Operand := .path ⟨[.attribute "page"]⟩
    let seven : Operand := .value (.number "seven")
    let missing : Operand := .path ⟨[.attribute "last"]⟩
    (between page seven (.value (.number "9"))).holds item = .error (.notANumber "seven") ∧
      (inBounds page seven (.value (.number "9"))).holds item = .error (.notANumber "seven") ∧
      (between page seven missing).holds item = .ok false ∧
      (equalOne page missing [seven, page]).holds item = .error (.notANumber "seven") := by
  intro item page seven missing
  have failed : (between page seven (.value (.number "9"))).holds item =
      .error (.notANumber "seven") := by
    decide +kernel
  have spoiled : (among page [missing, seven, page]).holds item =
      .error (.notANumber "seven") := by
    decide +kernel
  rcases holds_written_out item page seven (.value (.number "9")) missing [seven, page] with
    ⟨writtenOut, -, -, membership, -⟩
  rcases holds_written_out item page seven missing missing [] with ⟨-, -, unbounded, -, -⟩
  refine ⟨failed, ?_, unbounded (.inr (.inr rfl)), ?_⟩
  · rw [← writtenOut rfl, failed]
  · rw [← membership, spoiled]

end ItemTable.Condition
