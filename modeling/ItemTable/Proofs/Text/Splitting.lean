import ItemTable.Text.Split

/-!
# Splitting undoes joining

The pieces of a text hold no separator, and pieces without separators are the
pieces of their join.  So a text is determined by its pieces, and a text that is
put together from pieces can be taken apart piece by piece.
-/

namespace ItemTable.Text

variable {separator : Char} {text piece : List Char} {pieces : List (List Char)}

/-! ## Up to a separator -/

theorem takeWhile_append_of_notMem (unbroken : separator ∉ piece) :
    (piece ++ text).takeWhile (· != separator) = piece ++ text.takeWhile (· != separator) :=
  List.takeWhile_append_of_pos fun _ member => bne_iff_ne.mpr fun equal =>
    unbroken (equal ▸ member)

theorem dropWhile_append_of_notMem (unbroken : separator ∉ piece) :
    (piece ++ text).dropWhile (· != separator) = text.dropWhile (· != separator) :=
  List.dropWhile_append_of_pos fun _ member => bne_iff_ne.mpr fun equal =>
    unbroken (equal ▸ member)

/-- What stands before and behind the first separator is determined. -/
theorem append_cons_eq_append_cons_iff
    {other rest : List Char}
    (unbroken : separator ∉ piece)
    (otherUnbroken : separator ∉ other) :
    piece ++ separator :: text = other ++ separator :: rest ↔ piece = other ∧ text = rest := by
  constructor
  · intro equal
    have front := congrArg (List.takeWhile (· != separator)) equal
    simp only [takeWhile_append_of_notMem unbroken, takeWhile_append_of_notMem otherUnbroken,
      List.takeWhile_cons, bne_self_eq_false, Bool.false_eq_true, if_false,
      List.append_nil] at front
    cases front
    exact ⟨rfl, (List.cons.inj (List.append_cancel_left equal)).2⟩
  · rintro ⟨rfl, rfl⟩
    rfl

/-! ## Pieces -/

theorem split_cons_of_ne
    {char : Char}
    (other : char ≠ separator)
    (pieces_eq : split separator text = piece :: pieces) :
    split separator (char :: text) = (char :: piece) :: pieces := by
  simp only [split, if_neg other, pieces_eq]

/-- A text without separators is one piece. -/
theorem split_of_notMem (unbroken : separator ∉ text) :
    split separator text = [text] := by
  induction text with
  | nil => rfl
  | cons char text ih =>
      have other : separator ≠ char := List.ne_of_not_mem_cons unbroken
      exact split_cons_of_ne other.symm (ih (List.not_mem_of_not_mem_cons unbroken))

/-- The first piece ends at the first separator. -/
theorem split_append_cons
    (unbroken : separator ∉ piece) :
    split separator (piece ++ separator :: text) = piece :: split separator text := by
  induction piece with
  | nil => exact if_pos rfl
  | cons char piece ih =>
      have other : separator ≠ char := List.ne_of_not_mem_cons unbroken
      exact split_cons_of_ne other.symm (ih (List.not_mem_of_not_mem_cons unbroken))

/-- The pieces of a text hold no separator. -/
theorem notMem_of_mem_split (member : piece ∈ split separator text) :
    separator ∉ piece := by
  induction text generalizing piece with
  | nil =>
      cases List.mem_singleton.mp member
      exact List.not_mem_nil
  | cons char text ih =>
      by_cases equal : char = separator
      · rw [split, if_pos equal] at member
        rcases List.mem_cons.mp member with rfl | later
        · exact List.not_mem_nil
        · exact ih later
      · cases pieces_eq : split separator text with
        | nil => exact absurd pieces_eq (split_ne_nil separator text)
        | cons first others =>
            rw [pieces_eq] at ih
            rw [split_cons_of_ne equal pieces_eq] at member
            rcases List.mem_cons.mp member with rfl | later
            · exact List.not_mem_cons_of_ne_of_not_mem (Ne.symm equal) (ih List.mem_cons_self)
            · exact ih (List.mem_cons_of_mem _ later)

/-- Pieces without separators are the pieces of their join. -/
theorem split_join
    (nonempty : pieces ≠ [])
    (unbroken : ∀ piece ∈ pieces, separator ∉ piece) :
    split separator (join separator pieces) = pieces := by
  induction pieces with
  | nil => exact absurd rfl nonempty
  | cons piece pieces ih =>
      rcases List.forall_mem_cons.mp unbroken with ⟨here, others⟩
      cases pieces with
      | nil => exact split_of_notMem here
      | cons second pieces =>
          show split separator (piece ++ separator :: join separator (second :: pieces)) = _
          rw [split_append_cons here, ih (List.cons_ne_nil _ _) others]

theorem join_cons (piece : List Char) (pieces : List (List Char)) :
    join separator (piece :: pieces) = piece ++ pieces.flatMap (separator :: ·) := by
  induction pieces generalizing piece with
  | nil => exact (List.append_nil piece).symm
  | cons second pieces ih =>
      show piece ++ separator :: join separator (second :: pieces) = _
      rw [ih second]
      rfl

theorem isInfix_join_of_mem (member : piece ∈ pieces) : piece <:+: join separator pieces := by
  cases pieces with
  | nil => exact absurd member List.not_mem_nil
  | cons first pieces =>
      rw [join_cons]
      rcases List.mem_cons.mp member with rfl | later
      · exact (List.prefix_append _ _).isInfix
      · have inside : separator :: piece <:+: pieces.flatMap (separator :: ·) :=
          List.infix_of_mem_flatten (List.mem_map_of_mem later)
        have behind :
            pieces.flatMap (separator :: ·) <:+: first ++ pieces.flatMap (separator :: ·) :=
          (List.suffix_append _ _).isInfix
        exact ((List.suffix_cons separator piece).isInfix.trans inside).trans behind

/-- What is done to every piece changes nothing if and only if it changes no piece. -/
theorem join_map_split_eq_iff
    {change : List Char → List Char}
    (unbroken : ∀ piece, separator ∉ piece → separator ∉ change piece) :
    join separator ((split separator text).map change) = text ↔
      ∀ piece ∈ split separator text, change piece = piece := by
  have nonempty : (split separator text).map change ≠ [] :=
    fun none => split_ne_nil separator text (List.map_eq_nil_iff.mp none)
  have pieces : ∀ piece ∈ (split separator text).map change, separator ∉ piece := by
    intro changed member
    rcases List.mem_map.mp member with ⟨piece, source, rfl⟩
    exact unbroken piece (notMem_of_mem_split source)
  constructor
  · intro unchanged piece member
    have same : (split separator text).map change = (split separator text).map id := by
      rw [List.map_id, ← split_join nonempty pieces, unchanged]
    exact List.map_inj_left.mp same piece member
  · intro unchanged
    have same : (split separator text).map change = (split separator text).map id :=
      List.map_congr_left unchanged
    rw [same, List.map_id]
    exact join_split separator text

end ItemTable.Text
