import ItemTable.Expression.Error
import ItemTable.Text.Blank

/-!
# Tokens of expressions

An expression is a sequence of tokens, which blanks may separate.  Keywords and
the names of predicates are recognised in any case; every other word is an
identifier.

`Token.scan` reads the longest token at each place and ends the sequence with
`Token.endOfInput`.
-/

namespace ItemTable

/-- A token of an expression. -/
inductive Token where
  | identifier (word : String)
  /-- A name placeholder, without the `#`. -/
  | name (word : String)
  /-- A literal placeholder, without the `:`. -/
  | value (word : String)
  | comparison (operator : Comparison)
  | dot
  | comma
  | openParenthesis
  | closeParenthesis
  | openBracket
  | closeBracket
  | and
  | or
  | not
  | between
  | among
  | predicate (applied : Predicate)
  | size
  | index (position : Nat)
  | endOfInput
deriving DecidableEq

namespace Token

/-- The written form of a token. -/
def display : Token → String
  | identifier word => word
  | name word => "#" ++ word
  | value word => ":" ++ word
  | comparison operator => operator.symbol
  | dot => "."
  | comma => ","
  | openParenthesis => "("
  | closeParenthesis => ")"
  | openBracket => "["
  | closeBracket => "]"
  | and => "AND"
  | or => "OR"
  | not => "NOT"
  | between => "BETWEEN"
  | among => "IN"
  | predicate applied => applied.name
  | size => "size"
  | index position => position.repr
  | endOfInput => "<EOF>"

/-- The keyword or predicate that a word is in any case, or an identifier. -/
def ofWord (word : List Char) : Token :=
  match String.ofList (word.map Char.toLower) with
  | "and" => and
  | "or" => or
  | "not" => not
  | "between" => between
  | "in" => among
  | "size" => size
  | "attribute_exists" => predicate .attributeExists
  | "attribute_not_exists" => predicate .attributeNotExists
  | "attribute_type" => predicate .attributeType
  | "begins_with" => predicate .beginsWith
  | "contains" => predicate .contains
  | _ => identifier (String.ofList word)

/-- The token of a placeholder, whose word has to follow its mark. -/
def scanPlaceholder
    (mark : Char)
    (make : String → Token)
    (text : List Char) :
    Except ExpressionError (Token × List Char) :=
  match text.takeWhile Text.isWordChar with
  | [] =>
      let found := match text with
        | [] => endOfInput.display
        | char :: _ => String.singleton char
      .error (.unexpected found
        ("a placeholder name after '" ++ String.singleton mark ++ "'"))
  | word => .ok (make (String.ofList word), text.dropWhile Text.isWordChar)

/-- The token of a list index. -/
def scanIndex (text : List Char) : Except ExpressionError (Token × List Char) :=
  let digits := text.takeWhile Char.isDigit
  let position := Nat.ofDigitChars 10 digits 0
  if position < Path.indexBound then
    .ok (index position, text.dropWhile Char.isDigit)
  else
    .error (.indexTooLarge (String.ofList digits))

/-- The token that begins with a character, and the text behind it. -/
def scanToken
    (char : Char)
    (rest : List Char) :
    Except ExpressionError (Token × List Char) :=
  match char with
  | '#' => scanPlaceholder '#' name rest
  | ':' => scanPlaceholder ':' value rest
  | '=' => .ok (comparison .equal, rest)
  | '<' =>
      match rest with
      | '=' :: rest => .ok (comparison .lessOrEqual, rest)
      | '>' :: rest => .ok (comparison .notEqual, rest)
      | _ => .ok (comparison .less, rest)
  | '>' =>
      match rest with
      | '=' :: rest => .ok (comparison .greaterOrEqual, rest)
      | _ => .ok (comparison .greater, rest)
  | '.' => .ok (dot, rest)
  | ',' => .ok (comma, rest)
  | '(' => .ok (openParenthesis, rest)
  | ')' => .ok (closeParenthesis, rest)
  | '[' => .ok (openBracket, rest)
  | ']' => .ok (closeBracket, rest)
  | _ =>
      if char.isDigit then
        scanIndex (char :: rest)
      else if Text.isWordStart char then
        .ok (ofWord (char :: rest.takeWhile Text.isWordChar), rest.dropWhile Text.isWordChar)
      else
        .error (.unexpected (String.singleton char) "a valid token")

/-- A token takes at least its first character from the text. -/
theorem length_of_scanToken
    {char : Char}
    {rest behind : List Char}
    {token : Token}
    (scanned : scanToken char rest = .ok (token, behind)) :
    behind.length ≤ rest.length := by
  unfold scanToken at scanned
  split at scanned
  case h_1 | h_2 =>
    unfold scanPlaceholder at scanned
    split at scanned
    · cases scanned
    · cases scanned
      exact (List.dropWhile_sublist _).length_le
  case h_4 | h_5 =>
    split at scanned <;> cases scanned <;> simp
  case h_12 =>
    split at scanned
    next digit =>
      unfold scanIndex at scanned
      simp only at scanned
      split at scanned
      · cases scanned
        rw [List.dropWhile_cons_of_pos digit]
        exact (List.dropWhile_sublist _).length_le
      · cases scanned
    next =>
      split at scanned
      · cases scanned
        exact (List.dropWhile_sublist _).length_le
      · cases scanned
  all_goals
    cases scanned
    exact Nat.le_refl _

/-- The tokens of a text, with the end of input behind the last. -/
def scan (text : List Char) : Except ExpressionError (List Token) :=
  match text with
  | [] => .ok [endOfInput]
  | char :: rest =>
      if Text.isAsciiBlank char then
        scan rest
      else
        match scanned : scanToken char rest with
        | .error error => .error error
        | .ok (token, behind) =>
            have := length_of_scanToken scanned
            match scan behind with
            | .error error => .error error
            | .ok tokens => .ok (token :: tokens)
termination_by text.length

end Token

end ItemTable
