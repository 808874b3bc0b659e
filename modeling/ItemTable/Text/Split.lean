/-!
# Splitting and joining

A text is split at every occurrence of a separator, so that a text without
separators is one piece and the empty text is one empty piece.  Joining with
the separator undoes the split.
-/

namespace ItemTable.Text

/-- The pieces of `text` between the occurrences of `separator`. -/
def split (separator : Char) : List Char → List (List Char)
  | [] => [[]]
  | char :: rest =>
      if char = separator then
        [] :: split separator rest
      else
        match split separator rest with
        | [] => [[char]]
        | piece :: pieces => (char :: piece) :: pieces

/-- The pieces one after the other, with `separator` between neighbours. -/
def join (separator : Char) : List (List Char) → List Char
  | [] => []
  | [piece] => piece
  | piece :: pieces => piece ++ separator :: join separator pieces

/-- There is at least one piece. -/
theorem split_ne_nil
    (separator : Char)
    (text : List Char) :
    split separator text ≠ [] := by
  cases text with
  | nil => simp [split]
  | cons char rest =>
      rw [split]
      split
      · simp
      · split <;> simp

/-- Joining undoes the split. -/
theorem join_split
    (separator : Char)
    (text : List Char) :
    join separator (split separator text) = text := by
  induction text with
  | nil => rfl
  | cons char rest ih =>
      rw [split]
      split
      next equal =>
        cases pieces : split separator rest with
        | nil => exact absurd pieces (split_ne_nil separator rest)
        | cons piece others =>
            rw [pieces] at ih
            simp [join, ih, equal]
      next =>
        cases pieces : split separator rest with
        | nil => exact absurd pieces (split_ne_nil separator rest)
        | cons piece others =>
            rw [pieces] at ih
            cases others with
            | nil => simpa [join] using ih
            | cons second others => simpa [join] using ih

end ItemTable.Text
