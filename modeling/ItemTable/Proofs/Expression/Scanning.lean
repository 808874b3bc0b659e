import ItemTable.Expression.Token
import ItemTable.Proofs.Text.MarkedWord

/-!
# Scanning text piece by piece

The scanner takes the longest token at each place.  So a piece of text is
scanned to its own tokens if what stands behind it cannot lengthen the last of
them: `Token.before` puts the tokens of the piece before those of the rest.
-/

namespace ItemTable

namespace Text

/-- Whether no character at the beginning of a text can lengthen a word. -/
def endsWord (rest : List Char) : Bool :=
  !rest.head?.any isWordChar

/-- The longest stretch ends where a text without a fitting beginning follows. -/
theorem takeWhile_append_of_ends
    {fits : Char → Bool}
    {word rest : List Char}
    (chars : ∀ char ∈ word, fits char)
    (ends : rest.head?.any fits = false) :
    (word ++ rest).takeWhile fits = word ∧ (word ++ rest).dropWhile fits = rest := by
  rw [List.takeWhile_append_of_pos chars, List.dropWhile_append_of_pos chars]
  cases rest with
  | nil => simp
  | cons char rest => simp_all

theorem isWordChar_of_isDigit
    {char : Char}
    (digit : char.isDigit) :
    isWordChar char := by
  simp [isWordChar, Char.isAlphanum, digit]

theorem isWordChar_of_isWordStart
    {char : Char}
    (start : isWordStart char) :
    isWordChar char := by
  simp only [isWordStart, Bool.or_eq_true] at start
  rcases start with letter | underscore
  · simp [isWordChar, Char.isAlphanum, letter]
  · simp [isWordChar, underscore]

theorem isWordStart_eq_false_of_isDigit
    {char : Char}
    (digit : char.isDigit) :
    isWordStart char = false := by
  have notUnderscore : char ≠ '_' := by
    rintro rfl
    exact absurd digit (by decide)
  simp only [Char.isDigit, Bool.and_eq_true, decide_eq_true_eq, ge_iff_le,
    UInt32.le_iff_toNat_le] at digit
  have codes :
      '9'.val.toNat = 57 ∧ 'A'.val.toNat = 65 ∧ 'a'.val.toNat = 97 := by decide
  have notLetter : char.isAlpha = false := by
    unfold Char.isAlpha Char.isUpper Char.isLower
    simp only [Bool.or_eq_false_iff, Bool.and_eq_false_iff, decide_eq_false_iff_not, ge_iff_le,
      UInt32.le_iff_toNat_le]
    omega
  simp [isWordStart, notLetter, notUnderscore]

theorem isAsciiBlank_eq_false_of_isWordChar
    {char : Char}
    (inWord : isWordChar char) :
    isAsciiBlank char = false := by
  refine Bool.eq_false_iff.2 fun blank => ?_
  simp only [isAsciiBlank, Bool.or_eq_true, beq_iff_eq] at blank
  rcases blank with (((rfl | rfl) | rfl) | rfl) | rfl <;> exact absurd inWord (by decide)

end Text

namespace Token

open Text

/-- Tokens before those that the rest of a text is scanned to. -/
def before
    (tokens : List Token)
    (scanned : Except ExpressionError (List Token)) :
    Except ExpressionError (List Token) :=
  scanned.map (tokens ++ ·)

@[simp]
theorem before_before
    (first second : List Token)
    (scanned : Except ExpressionError (List Token)) :
    before first (before second scanned) = before (first ++ second) scanned := by
  cases scanned <;> simp [before, Except.map]

@[simp]
theorem before_nil (scanned : Except ExpressionError (List Token)) :
    before [] scanned = scanned := by
  cases scanned <;> rfl

@[simp]
theorem scan_nil : scan [] = .ok [endOfInput] := by
  rw [scan]

@[simp]
theorem scan_space (rest : List Char) : scan (' ' :: rest) = scan rest := by
  rw [scan, if_pos (by decide)]

/-- A token at the beginning of a text stands before the others. -/
theorem scan_cons
    {char : Char}
    {rest behind : List Char}
    {token : Token}
    (visible : isAsciiBlank char = false)
    (scanned : scanToken char rest = .ok (token, behind)) :
    scan (char :: rest) = before [token] (scan behind) := by
  rw [scan, visible]
  split
  next contrary => cases contrary
  next =>
    split
    next error failed => rw [scanned] at failed; cases failed
    next next here found =>
      rw [scanned] at found
      cases found
      cases scan behind <;> rfl

/-! ## Signs -/

@[simp]
theorem scan_openParenthesis (rest : List Char) :
    scan ('(' :: rest) = before [openParenthesis] (scan rest) :=
  scan_cons rfl rfl

@[simp]
theorem scan_closeParenthesis (rest : List Char) :
    scan (')' :: rest) = before [closeParenthesis] (scan rest) :=
  scan_cons rfl rfl

@[simp]
theorem scan_openBracket (rest : List Char) :
    scan ('[' :: rest) = before [openBracket] (scan rest) :=
  scan_cons rfl rfl

@[simp]
theorem scan_closeBracket (rest : List Char) :
    scan (']' :: rest) = before [closeBracket] (scan rest) :=
  scan_cons rfl rfl

@[simp]
theorem scan_dot (rest : List Char) :
    scan ('.' :: rest) = before [dot] (scan rest) :=
  scan_cons rfl rfl

@[simp]
theorem scan_comma (rest : List Char) :
    scan (',' :: rest) = before [comma] (scan rest) :=
  scan_cons rfl rfl

/-- An operator is scanned as it is written if a space follows. -/
@[simp]
theorem scan_symbol (operator : Comparison) (rest : List Char) :
    scan (operator.symbol.toList ++ ' ' :: rest) =
      before [comparison operator] (scan rest) := by
  cases operator <;> exact (scan_cons rfl rfl).trans (congrArg _ (scan_space rest))

/-! ## Words and numbers -/

theorem scan_word
    {first : Char}
    {word rest : List Char}
    (start : isWordStart first)
    (chars : ∀ char ∈ word, isWordChar char)
    (ends : endsWord rest) :
    scan (first :: (word ++ rest)) = before [ofWord (first :: word)] (scan rest) := by
  have visible := isAsciiBlank_eq_false_of_isWordChar (isWordChar_of_isWordStart start)
  have notDigit : first.isDigit = false := by
    refine Bool.eq_false_iff.2 fun digit => ?_
    simp [isWordStart_eq_false_of_isDigit digit] at start
  obtain ⟨taken, dropped⟩ := takeWhile_append_of_ends chars (by simpa [endsWord] using ends)
  apply scan_cons visible
  unfold scanToken
  split
  case h_12 => simp [notDigit, start, taken, dropped]
  all_goals exact absurd start (by decide)

/-- A word before a space is scanned as one token. -/
theorem scan_spacedWord
    {first : Char}
    {word : List Char}
    (start : isWordStart first)
    (chars : ∀ char ∈ word, isWordChar char)
    (rest : List Char) :
    scan (first :: (word ++ ' ' :: rest)) = before [ofWord (first :: word)] (scan rest) :=
  (scan_word start chars rfl).trans (congrArg _ (scan_space rest))

@[simp]
theorem scan_and (rest : List Char) :
    scan ('A' :: 'N' :: 'D' :: ' ' :: rest) = before [and] (scan rest) :=
  @scan_spacedWord 'A' ['N', 'D'] rfl (List.all_eq_true.mp rfl) rest

@[simp]
theorem scan_or (rest : List Char) :
    scan ('O' :: 'R' :: ' ' :: rest) = before [or] (scan rest) :=
  @scan_spacedWord 'O' ['R'] rfl (List.all_eq_true.mp rfl) rest

@[simp]
theorem scan_not (rest : List Char) :
    scan ('N' :: 'O' :: 'T' :: ' ' :: rest) = before [not] (scan rest) :=
  @scan_spacedWord 'N' ['O', 'T'] rfl (List.all_eq_true.mp rfl) rest

@[simp]
theorem scan_between (rest : List Char) :
    scan ('B' :: 'E' :: 'T' :: 'W' :: 'E' :: 'E' :: 'N' :: ' ' :: rest) =
      before [between] (scan rest) :=
  @scan_spacedWord 'B' ['E', 'T', 'W', 'E', 'E', 'N'] rfl (List.all_eq_true.mp rfl) rest

@[simp]
theorem scan_among (rest : List Char) :
    scan ('I' :: 'N' :: ' ' :: rest) = before [among] (scan rest) :=
  @scan_spacedWord 'I' ['N'] rfl (List.all_eq_true.mp rfl) rest

@[simp]
theorem scan_size (rest : List Char) :
    scan ('s' :: 'i' :: 'z' :: 'e' :: '(' :: rest) =
      before [size, openParenthesis] (scan rest) := by
  have word := @scan_word 's' ['i', 'z', 'e'] ('(' :: rest) rfl (List.all_eq_true.mp rfl) rfl
  rw [scan_openParenthesis, before_before] at word
  exact word

@[simp]
theorem scan_predicate (applied : Predicate) (rest : List Char) :
    scan (applied.name.toList ++ '(' :: rest) =
      before [predicate applied, openParenthesis] (scan rest) := by
  have scanned {first : Char} {word : List Char}
      (equal : applied.name.toList = first :: word)
      (start : isWordStart first)
      (chars : ∀ char ∈ word, isWordChar char)
      (token : ofWord (first :: word) = predicate applied) :
      scan (applied.name.toList ++ '(' :: rest) =
        before [predicate applied, openParenthesis] (scan rest) := by
    rw [equal, List.cons_append, scan_word start chars rfl, scan_openParenthesis,
      before_before, token]
    rfl
  cases applied <;> exact scanned rfl rfl (List.all_eq_true.mp rfl) rfl

/-- A marked word is scanned as a placeholder of its mark. -/
theorem scan_marked
    {mark : Char}
    {make : String → Token}
    {placeholder : String}
    {rest : List Char}
    (visible : isAsciiBlank mark = false)
    (scans : ∀ text, scanToken mark text = scanPlaceholder mark make text)
    (marked : isMarkedWord mark placeholder)
    (ends : endsWord rest) :
    scan (placeholder.toList ++ rest) =
      before [make (unmarked placeholder)] (scan rest) := by
  rcases isMarkedWord_iff.1 marked with ⟨word, equal, nonempty, chars⟩
  obtain ⟨taken, dropped⟩ := takeWhile_append_of_ends chars (by simpa [endsWord] using ends)
  have scanned :
      scanToken mark (word ++ rest) = .ok (make (String.ofList word), rest) := by
    simp only [scans, scanPlaceholder, taken, dropped]
  rw [equal, List.cons_append, scan_cons visible scanned, unmarked, equal]
  rfl

theorem scan_namePlaceholder
    {placeholder : String}
    {rest : List Char}
    (marked : isMarkedWord '#' placeholder)
    (ends : endsWord rest) :
    scan (placeholder.toList ++ rest) =
      before [name (unmarked placeholder)] (scan rest) :=
  scan_marked rfl (fun _ => rfl) marked ends

theorem scan_valuePlaceholder
    {placeholder : String}
    {rest : List Char}
    (marked : isMarkedWord ':' placeholder)
    (ends : endsWord rest) :
    scan (placeholder.toList ++ rest) =
      before [value (unmarked placeholder)] (scan rest) :=
  scan_marked rfl (fun _ => rfl) marked ends

theorem scan_digits
    {position : Nat}
    {rest : List Char}
    (bounded : position < Path.indexBound)
    (ends : rest.head?.any Char.isDigit = false) :
    scan (Nat.toDigits 10 position ++ rest) = before [index position] (scan rest) := by
  have chars : ∀ char ∈ Nat.toDigits 10 position, char.isDigit := fun char member =>
    Nat.isDigit_of_mem_toDigits (by decide) (by decide) member
  rcases takeWhile_append_of_ends chars ends with ⟨taken, dropped⟩
  cases digits : Nat.toDigits 10 position with
  | nil => exact absurd digits Nat.toDigits_ne_nil
  | cons first others =>
      rw [digits] at taken dropped
      have digit : first.isDigit := chars first (by simp [digits])
      have visible := isAsciiBlank_eq_false_of_isWordChar (isWordChar_of_isDigit digit)
      have read : Nat.ofDigitChars 10 (first :: others) 0 = position := by
        rw [← digits, Nat.ofDigitChars_ten_toDigits]
      have scanned : scanIndex (first :: (others ++ rest)) = .ok (index position, rest) := by
        rw [← List.cons_append, scanIndex, taken, dropped, read, if_pos bounded]
      apply scan_cons visible
      unfold scanToken
      split
      case h_12 => simp [digit, scanned]
      all_goals exact absurd digit (by decide)

/-- The digits of a list index are scanned as the index before its bracket. -/
theorem scan_index
    {position : Nat}
    (bounded : position < Path.indexBound)
    (rest : List Char) :
    scan (Nat.toDigits 10 position ++ ']' :: rest) =
      before [index position, closeBracket] (scan rest) := by
  rw [scan_digits bounded rfl, scan_closeBracket, before_before]
  rfl

end Token

end ItemTable
