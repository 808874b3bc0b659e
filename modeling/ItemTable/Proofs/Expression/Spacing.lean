import ItemTable.Proofs.Expression.Lexing

/-!
# Tokens with blanks between them

Tokens are written down by their display forms, keywords and the names of predicates in any
case.  The scanner recovers a sequence of tokens from these forms if blanks stand between
them, because no token takes up a blank.

Whatever the text, the scanner comes to an end: it finds an error or tokens among which the
end of input is the last and no other.
-/

namespace ItemTable

namespace Token

open Text

/-! ## Written tokens -/

/-- Whether the case of the letters of a token does not count. -/
def isReserved : Token → Bool
  | and | or | not | between | among | size | predicate _ => true
  | _ => false

/-- A token is written as its display form, in any case if it is reserved. -/
def IsWrittenAs (token : Token) (spelling : List Char) : Prop :=
  spelling = token.display.toList ∨
    token.isReserved ∧ lowered spelling = lowered token.display.toList

instance (token : Token) (spelling : List Char) : Decidable (token.IsWrittenAs spelling) :=
  inferInstanceAs (Decidable (_ ∨ _ ∧ _))

/-- Whether a token is what its display form says: a word that is no keyword, a placeholder
with a word, an index below the bound, or any other token but the end of input. -/
def IsWritable : Token → Prop
  | identifier word =>
      word.toList.head?.any isWordStart ∧ word.toList.all isWordChar ∧
        lowered word.toList ∉ keywords.map Prod.fst
  | name word | value word => word.toList ≠ [] ∧ word.toList.all isWordChar
  | index position => position < 2 ^ 64
  | endOfInput => False
  | _ => True

instance (token : Token) : Decidable token.IsWritable :=
  match token with
  | identifier _ => inferInstanceAs (Decidable (_ ∧ _ ∧ _))
  | name _ | value _ => inferInstanceAs (Decidable (_ ∧ _))
  | index _ => inferInstanceAs (Decidable (_ < _))
  | endOfInput => inferInstanceAs (Decidable False)
  | comparison _ | dot | comma | openParenthesis | closeParenthesis | openBracket
  | closeBracket | and | or | not | between | among | predicate _ | size =>
      inferInstanceAs (Decidable True)

/-- The text is made of the written tokens, with one blank or more behind each that another
follows. -/
inductive Spaced : List Token → List Char → Prop
  | nil : Spaced [] []
  | cons
      {token : Token}
      {tokens : List Token}
      {spelling gap text : List Char}
      (written : token.IsWrittenAs spelling)
      (blank : ∀ char ∈ gap, isAsciiBlank char)
      (apart : tokens ≠ [] → gap ≠ [])
      (behind : Spaced tokens text) :
      Spaced (token :: tokens) (spelling ++ (gap ++ text))

/-! ## Letters in any case -/

variable {char : Char} {token : Token} {spelling : List Char}

/-- A character is changed to lower case only if it is a letter. -/
theorem isAlpha_or_toLower_eq (char : Char) : char.isAlpha ∨ char.toLower = char := by
  by_cases upper : char.isUpper
  · exact .inl (Bool.or_eq_true_iff.mpr (.inl upper))
  · exact .inr (dif_neg fun inRange => upper (decide_eq_true inRange))

theorem isWordStart_of_toLower (start : isWordStart char.toLower) : isWordStart char := by
  rcases isAlpha_or_toLower_eq char with letter | same
  · exact Bool.or_eq_true_iff.mpr (.inl letter)
  · rwa [same] at start

theorem isWordChar_of_toLower (inWord : isWordChar char.toLower) : isWordChar char := by
  rcases isAlpha_or_toLower_eq char with letter | same
  · exact Bool.or_eq_true_iff.mpr (.inl (Bool.or_eq_true_iff.mpr (.inl letter)))
  · rwa [same] at inWord

/-- The keywords are words, so whatever is a keyword in lower case is a word. -/
theorem isWord_of_keyword (isKeyword : (lowered spelling, token) ∈ keywords) :
    ∃ first word,
      spelling = first :: word ∧ isWordStart first ∧ ∀ char ∈ word, isWordChar char := by
  have words : ∀ entry ∈ keywords,
      entry.1.toList.head?.any isWordStart ∧ entry.1.toList.all isWordChar := by decide
  rcases words _ isKeyword with ⟨start, chars⟩
  rw [lowered, String.toList_ofList] at start chars
  cases spelling with
  | nil => cases start
  | cons first word =>
      refine ⟨first, word, rfl, isWordStart_of_toLower start, fun char member => ?_⟩
      apply isWordChar_of_toLower
      exact List.all_eq_true.mp chars _ (List.mem_map_of_mem (List.mem_cons_of_mem _ member))

/-! ## Spellings -/

/-- The reserved tokens are the keywords. -/
theorem mem_keywords_of_isReserved (reserved : token.isReserved) :
    (lowered token.display.toList, token) ∈ keywords := by
  cases token with
  | predicate applied => cases applied <;> decide
  | and | or | not | between | among | size => decide
  | _ => cases reserved

theorem spelled_of_isReserved
    (reserved : token.isReserved)
    (written : lowered spelling = lowered token.display.toList) :
    token.Spelled spelling := by
  have isKeyword : (lowered spelling, token) ∈ keywords :=
    written ▸ mem_keywords_of_isReserved reserved
  rcases isWord_of_keyword isKeyword with ⟨first, word, rfl, start, chars⟩
  exact .keyword start chars isKeyword

/-- A writable token is spelled as its display form. -/
theorem IsWritable.spelled_display (writable : token.IsWritable) :
    token.Spelled token.display.toList := by
  cases token with
  | identifier word =>
      rcases writable with ⟨start, chars, noKeyword⟩
      rw [← String.ofList_toList (s := word)]
      rw [display, String.toList_ofList]
      cases text : word.toList with
      | nil =>
          rw [text] at start
          cases start
      | cons first others =>
          rw [text] at start chars noKeyword
          rw [List.all_cons, Bool.and_eq_true] at chars
          exact .identifier start (List.all_eq_true.mp chars.2) noKeyword
  | name word =>
      rcases writable with ⟨nonempty, chars⟩
      have spelled := Spelled.name nonempty (List.all_eq_true.mp chars)
      rw [String.ofList_toList] at spelled
      rw [display, String.toList_append]
      exact spelled
  | value word =>
      rcases writable with ⟨nonempty, chars⟩
      have spelled := Spelled.value nonempty (List.all_eq_true.mp chars)
      rw [String.ofList_toList] at spelled
      rw [display, String.toList_append]
      exact spelled
  | index position =>
      have value : Nat.ofDigitChars 10 (Nat.toDigits 10 position) 0 = position :=
        Nat.ofDigitChars_ten_toDigits
      have chars : ∀ char ∈ Nat.toDigits 10 position, char.isDigit := fun char member =>
        Nat.isDigit_of_mem_toDigits (by decide) (by decide) member
      have spelled := Spelled.index Nat.toDigits_ne_nil chars (value.symm ▸ writable)
      rw [value] at spelled
      rw [display, Nat.toList_repr]
      exact spelled
  | comparison operator => cases operator <;> exact .sign (by decide)
  | dot | comma | openParenthesis | closeParenthesis | openBracket | closeBracket =>
      exact .sign (by decide)
  | and | or | not | between | among | size | predicate _ =>
      exact spelled_of_isReserved rfl rfl
  | endOfInput => cases writable

/-- A writable token is spelled as it is written. -/
theorem IsWritable.spelled
    (writable : token.IsWritable)
    (written : token.IsWrittenAs spelling) :
    token.Spelled spelling := by
  rcases written with rfl | ⟨reserved, inAnyCase⟩
  · exact writable.spelled_display
  · exact spelled_of_isReserved reserved inAnyCase

/-- No token takes up a blank. -/
theorem goesOn_of_isAsciiBlank
    (token : Token)
    (blank : isAsciiBlank char) :
    token.goesOn char = false := by
  simp only [isAsciiBlank, Bool.or_eq_true, beq_iff_eq] at blank
  cases token with
  | comparison operator =>
      rcases blank with (((rfl | rfl) | rfl) | rfl) | rfl <;> cases operator <;> rfl
  | _ => rcases blank with (((rfl | rfl) | rfl) | rfl) | rfl <;> rfl

end Token

/-! ## Texts -/

open Token (Spaced)

variable {text gap : List Char} {tokens : List Token}

/-- Blanks in front of a text add no token. -/
theorem Lexes.blanks
    (blank : ∀ char ∈ gap, Text.isAsciiBlank char)
    (behind : Lexes text tokens) :
    Lexes (gap ++ text) tokens := by
  induction gap with
  | nil => exact behind
  | cons char gap ih =>
      rcases List.forall_mem_cons.mp blank with ⟨first, others⟩
      exact .blank first (ih others)

/-- Written tokens with blanks between them are the tokens of the text. -/
theorem Token.Spaced.lexes
    (spaced : Spaced tokens text)
    (writable : ∀ token ∈ tokens, token.IsWritable) :
    Lexes text tokens := by
  induction spaced with
  | nil => exact .nil
  | @cons token tokens spelling gap text written blank apart behind ih =>
      rcases List.forall_mem_cons.mp writable with ⟨first, others⟩
      have longest : (gap ++ text).head?.any token.goesOn = false := by
        cases gap with
        | cons char gap => exact token.goesOn_of_isAsciiBlank (blank char List.mem_cons_self)
        | nil =>
            -- Without a blank behind it the token is the last one.
            cases behind with
            | nil => rfl
            | cons => exact absurd rfl (apart (List.cons_ne_nil _ _))
      exact .token (first.spelled written) longest (.blanks blank (ih others))

/-- The scanner recovers the tokens that a text is made of, and from any text it finds an
error or tokens of which the last, and no other, is the end of input. -/
theorem Token.scan_recovers :
    (∀ tokens text, (∀ token ∈ tokens, token.IsWritable) → Spaced tokens text →
        scan text = .ok (tokens ++ [endOfInput])) ∧
      (∀ text,
        (∃ error, scan text = .error error) ∨
          ∃ tokens, scan text = .ok (tokens ++ [endOfInput]) ∧ endOfInput ∉ tokens) := by
  constructor
  case left =>
    intro tokens text writable spaced
    exact (spaced.lexes writable).scan
  case right =>
    intro text
    cases scanned : scan text with
    | error error => exact .inl ⟨error, rfl⟩
    | ok found =>
        rcases exists_lexes_of_scan scanned with ⟨tokens, rfl, lexes⟩
        exact .inr ⟨tokens, rfl, lexes.endOfInput_not_mem⟩

/-- Tokens that would run into each other without blanks. -/
def crowd : List Token :=
  [.comparison .less, .comparison .equal, .not, .identifier "nots", .value "1",
    .index 18446744073709551615]

/-- The crowd with blanks, and with a keyword in mixed case. -/
def crowdText : List Char :=
  ['<'] ++ ([' '] ++ (['='] ++ (['\t', '\n'] ++ ("nOt".toList ++ ([' '] ++ ("nots".toList ++
    ([' '] ++ (":1".toList ++ ([' '] ++ ("18446744073709551615".toList ++ ([] ++ [])))))))))))

/-- The crowd is recovered from its text. -/
theorem Token.scan_recovers_crowd :
    Spaced crowd crowdText ∧ scan crowdText = .ok (crowd ++ [endOfInput]) := by
  have writable : ∀ token ∈ crowd, token.IsWritable := by decide
  have spaced : Spaced crowd crowdText :=
    .cons (.inl rfl) (List.all_eq_true.mp rfl) (fun _ => List.cons_ne_nil _ _) <|
    .cons (.inl rfl) (List.all_eq_true.mp rfl) (fun _ => List.cons_ne_nil _ _) <|
    .cons (.inr ⟨rfl, by decide⟩) (List.all_eq_true.mp rfl) (fun _ => List.cons_ne_nil _ _) <|
    .cons (.inl rfl) (List.all_eq_true.mp rfl) (fun _ => List.cons_ne_nil _ _) <|
    .cons (.inl rfl) (List.all_eq_true.mp rfl) (fun _ => List.cons_ne_nil _ _) <|
    .cons (.inl rfl) nofun (absurd rfl) .nil
  exact ⟨spaced, scan_recovers.1 _ _ writable spaced⟩

end ItemTable
