import ItemTable.Proofs.AssociationList
import ItemTable.Proofs.Expression.Scanning
import Mathlib.Algebra.Group.Nat.Defs

/-!
# The lexical grammar

A text is a sequence of spelled tokens with blanks anywhere between them, in which
every token goes on as far as it can.  The scanner finds the tokens of a text exactly
if there are some, and they are the only ones.
-/

namespace ItemTable

namespace Token

open Text

/-! ## Spellings -/

/-- The words that are no identifiers, in lower case. -/
def keywords : List (String × Token) :=
  [("and", and), ("or", or), ("not", not), ("between", between), ("in", among),
    ("size", size), ("attribute_exists", predicate .attributeExists),
    ("attribute_not_exists", predicate .attributeNotExists),
    ("attribute_type", predicate .attributeType), ("begins_with", predicate .beginsWith),
    ("contains", predicate .contains)]

/-- The tokens that are written with signs. -/
def signs : List (String × Token) :=
  [("=", comparison .equal), ("<>", comparison .notEqual), ("<", comparison .less),
    ("<=", comparison .lessOrEqual), (">", comparison .greater),
    (">=", comparison .greaterOrEqual), (".", dot), (",", comma), ("(", openParenthesis),
    (")", closeParenthesis), ("[", openBracket), ("]", closeBracket)]

/-- A word by which keywords are recognised in any case. -/
def lowered (word : List Char) : String :=
  String.ofList (word.map Char.toLower)

/-- How tokens are written. -/
inductive Spelled : Token → List Char → Prop
  | sign
      {token : Token}
      {spelling : String}
      (isSign : (spelling, token) ∈ signs) :
      Spelled token spelling.toList
  | name
      {word : List Char}
      (nonempty : word ≠ [])
      (chars : ∀ char ∈ word, isWordChar char) :
      Spelled (.name (String.ofList word)) ('#' :: word)
  | value
      {word : List Char}
      (nonempty : word ≠ [])
      (chars : ∀ char ∈ word, isWordChar char) :
      Spelled (.value (String.ofList word)) (':' :: word)
  | index
      {digits : List Char}
      (nonempty : digits ≠ [])
      (chars : ∀ char ∈ digits, char.isDigit)
      (bounded : Nat.ofDigitChars 10 digits 0 < 2 ^ 64) :
      Spelled (.index (Nat.ofDigitChars 10 digits 0)) digits
  | keyword
      {token : Token}
      {first : Char}
      {word : List Char}
      (start : isWordStart first)
      (chars : ∀ char ∈ word, isWordChar char)
      (isKeyword : (lowered (first :: word), token) ∈ keywords) :
      Spelled token (first :: word)
  | identifier
      {first : Char}
      {word : List Char}
      (start : isWordStart first)
      (chars : ∀ char ∈ word, isWordChar char)
      (noKeyword : lowered (first :: word) ∉ keywords.map Prod.fst) :
      Spelled (.identifier (String.ofList (first :: word))) (first :: word)

/-- Whether a token takes up the character behind it. -/
def goesOn : Token → Char → Bool
  | comparison .less, char => char == '=' || char == '>'
  | comparison .greater, char => char == '='
  | index _, char => char.isDigit
  | name _, char | value _, char | identifier _, char => isWordChar char
  | and, char | or, char | not, char | between, char | among, char => isWordChar char
  | size, char | predicate _, char => isWordChar char
  | _, _ => false

end Token

open Token (Spelled)

/-- A text is spelled with the given tokens. -/
inductive Lexes : List Char → List Token → Prop
  | nil : Lexes [] []
  | blank
      {char : Char}
      {text : List Char}
      {tokens : List Token}
      (isBlank : Text.isAsciiBlank char)
      (behind : Lexes text tokens) :
      Lexes (char :: text) tokens
  | token
      {token : Token}
      {spelling text : List Char}
      {tokens : List Token}
      (spelled : token.Spelled spelling)
      (longest : text.head?.any token.goesOn = false)
      (behind : Lexes text tokens) :
      Lexes (spelling ++ text) (token :: tokens)

namespace Token

open Text

variable {token : Token} {char : Char} {word spelling rest behind : List Char}

/-! ## Words -/

theorem ofWord_eq (word : List Char) :
    ofWord word =
      (keywords.lookup (lowered word)).getD (identifier (String.ofList word)) := by
  rw [ofWord, lowered]
  split <;> simp_all [keywords, AssociationList.lookup_cons_ite]

theorem ofWord_of_keyword (isKeyword : (lowered word, token) ∈ keywords) :
    ofWord word = token := by
  have distinct : (keywords.map Prod.fst).Nodup := by decide
  rw [ofWord_eq, AssociationList.lookup_of_mem distinct isKeyword]
  rfl

theorem ofWord_of_no_keyword (noKeyword : lowered word ∉ keywords.map Prod.fst) :
    ofWord word = identifier (String.ofList word) := by
  have unknown : keywords.lookup (lowered word) = none := by
    rwa [← Option.not_isSome_iff_eq_none, AssociationList.lookup_isSome_iff_mem]
  rw [ofWord_eq, unknown]
  rfl

/-- Every word is a keyword or an identifier. -/
theorem spelled_ofWord
    {first : Char}
    (start : isWordStart first)
    (chars : ∀ char ∈ word, isWordChar char) :
    (ofWord (first :: word)).Spelled (first :: word) := by
  by_cases known : lowered (first :: word) ∈ keywords.map Prod.fst
  · rcases List.mem_map.mp known with ⟨⟨_, token⟩, isKeyword, rfl⟩
    rw [ofWord_of_keyword isKeyword]
    exact .keyword start chars isKeyword
  · rw [ofWord_of_no_keyword known]
    exact .identifier start chars known

/-- The token of a word takes up word characters. -/
theorem goesOn_ofWord (word : List Char) : (ofWord word).goesOn = isWordChar := by
  by_cases known : lowered word ∈ keywords.map Prod.fst
  · rcases List.mem_map.mp known with ⟨⟨_, token⟩, isKeyword, rfl⟩
    have all : ∀ entry ∈ keywords, entry.2.goesOn = isWordChar := by
      simp only [keywords, List.forall_mem_cons]
      exact ⟨rfl, rfl, rfl, rfl, rfl, rfl, rfl, rfl, rfl, rfl, rfl, nofun⟩
    rw [ofWord_of_keyword isKeyword]
    exact all _ isKeyword
  · rw [ofWord_of_no_keyword known]
    rfl

/-! ## One token -/

/-- What is left behind a longest stretch does not lengthen it. -/
theorem head?_dropWhile_any (fits : Char → Bool) (text : List Char) :
    (text.dropWhile fits).head?.any fits = false := by
  have stopped := List.head?_dropWhile_not fits text
  cases first : (text.dropWhile fits).head? with
  | none => rfl
  | some char =>
      rw [first] at stopped
      exact stopped

theorem of_mem_takeWhile
    {fits : Char → Bool}
    {text : List Char}
    (char : Char)
    (member : char ∈ text.takeWhile fits) :
    fits char :=
  List.all_eq_true.mp List.all_takeWhile char member

/-- A text begins with the token, which goes on as far as it can. -/
def Heads (token : Token) (text behind : List Char) : Prop :=
  ∃ spelling,
    text = spelling ++ behind ∧ token.Spelled spelling ∧
      behind.head?.any token.goesOn = false

theorem Heads.sign
    (spelling : String)
    (isSign : (spelling, token) ∈ signs)
    (longest : behind.head?.any token.goesOn = false) :
    token.Heads (spelling.toList ++ behind) behind :=
  ⟨_, rfl, .sign isSign, longest⟩

/-- A sign that takes up nothing ends wherever it stands. -/
theorem Heads.quietSign
    (spelling : String)
    (isSign : (spelling, token) ∈ signs)
    (quiet : ∀ char, token.goesOn char = false) :
    token.Heads (spelling.toList ++ behind) behind := by
  apply Heads.sign spelling isSign
  cases behind with
  | nil => rfl
  | cons char behind => exact quiet char

theorem heads_of_scanPlaceholder
    {mark : Char}
    {make : String → Token}
    (spelled : ∀ word, word ≠ [] → (∀ char ∈ word, isWordChar char) →
      (make (String.ofList word)).Spelled (mark :: word))
    (goesOn : ∀ word, (make word).goesOn = isWordChar)
    (scanned : scanPlaceholder mark make rest = .ok (token, behind)) :
    token.Heads (mark :: rest) behind := by
  unfold scanPlaceholder at scanned
  split at scanned
  · cases scanned
  · rename_i nonempty
    cases scanned
    refine ⟨mark :: rest.takeWhile isWordChar, ?_, spelled _ nonempty of_mem_takeWhile, ?_⟩
    · rw [List.cons_append, List.takeWhile_append_dropWhile]
    · rw [goesOn]
      exact head?_dropWhile_any _ _

theorem heads_of_scanIndex
    (isDigit : char.isDigit)
    (scanned : scanIndex (char :: rest) = .ok (token, behind)) :
    token.Heads (char :: rest) behind := by
  unfold scanIndex at scanned
  dsimp only at scanned
  split at scanned
  · rename_i bounded
    cases scanned
    refine ⟨(char :: rest).takeWhile Char.isDigit, ?_, .index ?_ of_mem_takeWhile bounded,
      head?_dropWhile_any _ _⟩
    · rw [List.takeWhile_append_dropWhile]
    · rw [List.takeWhile_cons_of_pos isDigit]
      exact List.cons_ne_nil _ _
  · cases scanned

/-- The scanner takes the longest token from the beginning of a text. -/
theorem heads_of_scanToken
    (scanned : scanToken char rest = .ok (token, behind)) :
    token.Heads (char :: rest) behind := by
  unfold scanToken at scanned
  split at scanned
  case h_1 => exact heads_of_scanPlaceholder (fun _ => .name) (fun _ => rfl) scanned
  case h_2 => exact heads_of_scanPlaceholder (fun _ => .value) (fun _ => rfl) scanned
  case h_4 =>
    split at scanned
    · cases scanned
      exact .quietSign "<=" (by decide) fun _ => rfl
    · cases scanned
      exact .quietSign "<>" (by decide) fun _ => rfl
    · rename_i noEqual noGreater
      cases scanned
      apply Heads.sign "<" (by decide)
      cases rest with
      | nil => rfl
      | cons next rest =>
          have notEqual : next ≠ '=' := fun equal => noEqual rest (by rw [equal])
          have notGreater : next ≠ '>' := fun equal => noGreater rest (by rw [equal])
          simp [goesOn, notEqual, notGreater]
  case h_5 =>
    split at scanned
    · cases scanned
      exact .quietSign ">=" (by decide) fun _ => rfl
    · rename_i noEqual
      cases scanned
      apply Heads.sign ">" (by decide)
      cases rest with
      | nil => rfl
      | cons next rest =>
          have notEqual : next ≠ '=' := fun equal => noEqual rest (by rw [equal])
          simp [goesOn, notEqual]
  case h_12 =>
    split at scanned
    · rename_i isDigit
      exact heads_of_scanIndex isDigit scanned
    · split at scanned
      · rename_i start
        cases scanned
        refine ⟨char :: rest.takeWhile isWordChar, ?_, spelled_ofWord start of_mem_takeWhile, ?_⟩
        · rw [List.cons_append, List.takeWhile_append_dropWhile]
        · rw [goesOn_ofWord]
          exact head?_dropWhile_any _ _
      · cases scanned
  case h_3 =>
    cases scanned
    exact .quietSign "=" (by decide) fun _ => rfl
  case h_6 =>
    cases scanned
    exact .quietSign "." (by decide) fun _ => rfl
  case h_7 =>
    cases scanned
    exact .quietSign "," (by decide) fun _ => rfl
  case h_8 =>
    cases scanned
    exact .quietSign "(" (by decide) fun _ => rfl
  case h_9 =>
    cases scanned
    exact .quietSign ")" (by decide) fun _ => rfl
  case h_10 =>
    cases scanned
    exact .quietSign "[" (by decide) fun _ => rfl
  case h_11 =>
    cases scanned
    exact .quietSign "]" (by decide) fun _ => rfl

/-! ## Scanning what is spelled -/

theorem scanPlaceholder_word
    (mark : Char)
    (make : String → Token)
    (nonempty : word ≠ [])
    (chars : ∀ char ∈ word, isWordChar char)
    (ends : rest.head?.any isWordChar = false) :
    scanPlaceholder mark make (word ++ rest) = .ok (make (String.ofList word), rest) := by
  rcases takeWhile_append_of_ends chars ends with ⟨taken, dropped⟩
  rw [scanPlaceholder.eq_def, taken, dropped]
  cases word with
  | nil => exact absurd rfl nonempty
  | cons first word => rfl

theorem scanIndex_digits
    {digits : List Char}
    (chars : ∀ char ∈ digits, char.isDigit)
    (bounded : Nat.ofDigitChars 10 digits 0 < 2 ^ 64)
    (ends : rest.head?.any Char.isDigit = false) :
    scanIndex (digits ++ rest) = .ok (.index (Nat.ofDigitChars 10 digits 0), rest) := by
  rcases takeWhile_append_of_ends chars ends with ⟨taken, dropped⟩
  rw [scanIndex, taken, dropped]
  exact if_pos bounded

theorem scanToken_digit (isDigit : char.isDigit) (rest : List Char) :
    scanToken char rest = scanIndex (char :: rest) := by
  unfold scanToken
  split
  case h_12 => rw [if_pos isDigit]
  all_goals exact absurd isDigit (by decide)

theorem scanToken_less (longest : rest.head?.any (goesOn (comparison .less)) = false) :
    scanToken '<' rest = .ok (comparison .less, rest) := by
  cases rest with
  | nil => rfl
  | cons next rest =>
      have others : next ≠ '=' ∧ next ≠ '>' := by simpa [goesOn] using longest
      simp [scanToken, others]

theorem scanToken_greater (longest : rest.head?.any (goesOn (comparison .greater)) = false) :
    scanToken '>' rest = .ok (comparison .greater, rest) := by
  cases rest with
  | nil => rfl
  | cons next rest =>
      have other : next ≠ '=' := by simpa [goesOn] using longest
      simp [scanToken, other]

/-- A sign is scanned as its token. -/
theorem scan_sign
    {spelling : String}
    (isSign : (spelling, token) ∈ signs)
    (longest : rest.head?.any token.goesOn = false) :
    scan (spelling.toList ++ rest) = before [token] (scan rest) := by
  simp only [signs, List.mem_cons, List.not_mem_nil, or_false, Prod.mk.injEq] at isSign
  rcases isSign with ⟨rfl, rfl⟩ | ⟨rfl, rfl⟩ | ⟨rfl, rfl⟩ | ⟨rfl, rfl⟩ | ⟨rfl, rfl⟩ | ⟨rfl, rfl⟩ |
    ⟨rfl, rfl⟩ | ⟨rfl, rfl⟩ | ⟨rfl, rfl⟩ | ⟨rfl, rfl⟩ | ⟨rfl, rfl⟩ | ⟨rfl, rfl⟩
  case inr.inr.inl => exact scan_cons rfl (scanToken_less longest)
  case inr.inr.inr.inr.inl => exact scan_cons rfl (scanToken_greater longest)
  all_goals exact scan_cons rfl rfl

/-- A spelled token is scanned as it is meant if nothing behind it lengthens it. -/
theorem scan_spelled
    (spelled : token.Spelled spelling)
    (longest : rest.head?.any token.goesOn = false) :
    scan (spelling ++ rest) = before [token] (scan rest) := by
  have endsWord (ends : rest.head?.any isWordChar = false) : endsWord rest := by
    rw [Text.endsWord, ends]
    rfl
  cases spelled with
  | sign isSign => exact scan_sign isSign longest
  | name nonempty chars =>
      exact scan_cons rfl (scanPlaceholder_word '#' .name nonempty chars longest)
  | value nonempty chars =>
      exact scan_cons rfl (scanPlaceholder_word ':' .value nonempty chars longest)
  | index nonempty chars bounded =>
      have scanned := scanIndex_digits chars bounded longest
      cases spelling with
      | nil => exact absurd rfl nonempty
      | cons first digits =>
          have isDigit := chars first List.mem_cons_self
          have visible := isAsciiBlank_eq_false_of_isWordChar (isWordChar_of_isDigit isDigit)
          rw [List.cons_append, ← scanToken_digit isDigit] at scanned
          exact scan_cons visible scanned
  | keyword start chars isKeyword =>
      rw [← ofWord_of_keyword isKeyword, goesOn_ofWord] at longest
      rw [← ofWord_of_keyword isKeyword]
      exact scan_word start chars (endsWord longest)
  | identifier start chars noKeyword =>
      rw [← ofWord_of_no_keyword noKeyword]
      exact scan_word start chars (endsWord longest)

end Token

/-! ## Whole texts -/

variable {text : List Char} {tokens : List Token}

theorem Lexes.scan (lexes : Lexes text tokens) :
    Token.scan text = .ok (tokens ++ [.endOfInput]) := by
  induction lexes with
  | nil => exact Token.scan_nil
  | blank isBlank behind ih =>
      rw [Token.scan, if_pos isBlank]
      exact ih
  | token spelled longest behind ih =>
      rw [Token.scan_spelled spelled longest, ih]
      rfl

theorem exists_lexes_of_scan (scanned : Token.scan text = .ok tokens) :
    ∃ lexemes, tokens = lexemes ++ [.endOfInput] ∧ Lexes text lexemes := by
  fun_induction Token.scan text generalizing tokens with
  | case1 =>
      cases scanned
      exact ⟨[], rfl, .nil⟩
  | case2 char rest isBlank ih =>
      rcases ih scanned with ⟨lexemes, rfl, lexes⟩
      exact ⟨lexemes, rfl, .blank isBlank lexes⟩
  | case3 => cases scanned
  | case4 => cases scanned
  | case5 char rest visible token behind first _ others found ih =>
      cases scanned
      rcases ih found with ⟨lexemes, rfl, lexes⟩
      rcases Token.heads_of_scanToken first with ⟨spelling, split, spelled, longest⟩
      rw [split]
      exact ⟨token :: lexemes, rfl, .token spelled longest lexes⟩

/-- The scanner finds the tokens with which a text is spelled, and puts the end of
input behind them. -/
theorem scan_eq_ok_iff_lexes :
    Token.scan text = .ok tokens ↔
      ∃ lexemes, tokens = lexemes ++ [.endOfInput] ∧ Lexes text lexemes := by
  constructor
  · exact exists_lexes_of_scan
  · rintro ⟨lexemes, rfl, lexes⟩
    exact lexes.scan

/-- A text is spelled with one sequence of tokens at most. -/
theorem Lexes.unique
    {others : List Token}
    (first : Lexes text tokens)
    (second : Lexes text others) :
    tokens = others := by
  have same := first.scan.symm.trans second.scan
  exact List.append_cancel_right (Except.ok.inj same)

/-- No text is spelled with the end of input. -/
theorem Lexes.endOfInput_not_mem (lexes : Lexes text tokens) : .endOfInput ∉ tokens := by
  have noSpelling {spelling : List Char} : ¬Spelled .endOfInput spelling := by
    intro spelled
    generalize ends : Token.endOfInput = token at spelled
    cases spelled with
    | sign isSign =>
        subst ends
        simp [Token.signs] at isSign
    | keyword start chars isKeyword =>
        subst ends
        simp [Token.keywords] at isKeyword
    | _ => cases ends
  induction lexes with
  | nil => exact List.not_mem_nil
  | blank isBlank behind ih => exact ih
  | token spelled longest behind ih =>
      rw [List.mem_cons, not_or]
      refine ⟨?_, ih⟩
      rintro rfl
      exact noSpelling spelled

end ItemTable
