import ItemTable.Expression.Token

/-!
# Parsing expressions

Conditions are read with OR binding loosest, then AND, then NOT; both
connectives associate to the left.  Placeholders are replaced by what they stand
for, so the result is the tree that a caller would have built.

A parser takes the tokens that it needs from the front and leaves the rest.  A
failure keeps the tokens that are left from the one that could not be used on;
the placeholders before it have been resolved.
-/

namespace ItemTable

/-- What the placeholders of an expression stand for. -/
structure References where
  names : NameMap String
  values : NameMap AttributeValue

/-- Why tokens cannot be read, and the tokens that are left then. -/
structure ParseFailure where
  error : ExpressionError
  remaining : List Token

namespace Token

/-- The tokens do not begin as they should. -/
def refuse
    {α : Type}
    (expected : String)
    (tokens : List Token) :
    Except ParseFailure (α × List Token) :=
  .error ⟨.unexpected (tokens.headD endOfInput).display expected, tokens⟩

/-- Take one given token. -/
def expect
    (token : Token) :
    List Token → Except ParseFailure (Unit × List Token)
  | [] => refuse token.display []
  | first :: rest =>
      if first = token then .ok ((), rest) else refuse token.display (first :: rest)

end Token

namespace References

/-! ## Paths -/

/-- Read the name of a path element. -/
def parseName
    (references : References) :
    List Token → Except ParseFailure (PathElement × List Token)
  | .identifier word :: rest => .ok (.attribute word, rest)
  | .name word :: rest =>
      let placeholder := "#" ++ word
      match references.names.find? placeholder with
      | some name => .ok (.attribute name, rest)
      | none => .error ⟨.unresolvedName placeholder, .name word :: rest⟩
  | tokens => Token.refuse "an attribute name or #name" tokens

/-- Read the elements behind the first one; `fuel` is at least the number of
tokens. -/
def parseElements
    (references : References) :
    Nat → List Token → Except ParseFailure (List PathElement × List Token)
  | fuel + 1, .dot :: rest => do
      let (element, rest) ← references.parseName rest
      let (elements, rest) ← references.parseElements fuel rest
      return (element :: elements, rest)
  | fuel + 1, .openBracket :: .index position :: rest => do
      let (_, rest) ← Token.expect .closeBracket rest
      let (elements, rest) ← references.parseElements fuel rest
      return (.index position :: elements, rest)
  | _, .openBracket :: rest => Token.refuse "a list index" rest
  | _, tokens => .ok ([], tokens)

/-- Read a path. -/
def parsePath
    (references : References)
    (tokens : List Token) :
    Except ParseFailure (Path × List Token) := do
  let (element, rest) ← references.parseName tokens
  let (elements, rest) ← references.parseElements rest.length rest
  return (⟨element :: elements⟩, rest)

/-! ## Operands -/

/-- Read an operand: a literal, a size, or a path. -/
def parseOperand
    (references : References) :
    List Token → Except ParseFailure (Operand × List Token)
  | .value word :: rest =>
      let placeholder := ":" ++ word
      match references.values.find? placeholder with
      | some value => .ok (.value value, rest)
      | none => .error ⟨.unresolvedValue placeholder, .value word :: rest⟩
  | .size :: rest => do
      let (_, rest) ← Token.expect .openParenthesis rest
      let (path, rest) ← references.parsePath rest
      let (_, rest) ← Token.expect .closeParenthesis rest
      return (.size path, rest)
  | tokens => do
      let (path, rest) ← references.parsePath tokens
      return (.path path, rest)

/-- Read the operands behind the first one, each behind a comma; `fuel` is at
least the number of tokens. -/
def parseMoreOperands
    (references : References) :
    Nat → List Token → Except ParseFailure (List Operand × List Token)
  | fuel + 1, .comma :: rest => do
      let (operand, rest) ← references.parseOperand rest
      let (operands, rest) ← references.parseMoreOperands fuel rest
      return (operand :: operands, rest)
  | _, tokens => .ok ([], tokens)

/-- Read operands with commas between them, at least one. -/
def parseOperands
    (references : References)
    (tokens : List Token) :
    Except ParseFailure (List Operand × List Token) := do
  let (operand, rest) ← references.parseOperand tokens
  let (operands, rest) ← references.parseMoreOperands rest.length rest
  return (operand :: operands, rest)

/-! ## Conditions -/

/-- Read the arguments of a predicate, and check them once they are all read. -/
def parseTest
    (references : References)
    (predicate : Predicate)
    (tokens : List Token) :
    Except ParseFailure (Condition × List Token) := do
  let (_, rest) ← Token.expect .openParenthesis tokens
  let (arguments, rest) ← references.parseOperands rest
  let (_, rest) ← Token.expect .closeParenthesis rest
  if arguments.length ≠ predicate.arity then
    .error ⟨.wrongArity predicate arguments.length, rest⟩
  else
    match arguments with
    | .path _ :: _ => .ok (.test predicate arguments, rest)
    | _ => .error ⟨.notAPath predicate, rest⟩

/-- Read what follows the first operand of a condition. -/
def parseRelation
    (references : References)
    (left : Operand) :
    List Token → Except ParseFailure (Condition × List Token)
  | .comparison operator :: rest => do
      let (right, rest) ← references.parseOperand rest
      return (.compare left operator right, rest)
  | .between :: rest => do
      let (low, rest) ← references.parseOperand rest
      let (_, rest) ← Token.expect .and rest
      let (high, rest) ← references.parseOperand rest
      return (.between left low high, rest)
  | .among :: rest => do
      let (_, rest) ← Token.expect .openParenthesis rest
      let (candidates, rest) ← references.parseOperands rest
      let (_, rest) ← Token.expect .closeParenthesis rest
      return (.among left candidates, rest)
  | tokens => Token.refuse "a comparison operator, BETWEEN or IN" tokens

/-- Read a condition without connectives; `inner` reads what parentheses hold. -/
def parsePrimary
    (references : References)
    (inner : List Token → Except ParseFailure (Condition × List Token)) :
    List Token → Except ParseFailure (Condition × List Token)
  | .openParenthesis :: rest => do
      let (condition, rest) ← inner rest
      let (_, rest) ← Token.expect .closeParenthesis rest
      return (condition, rest)
  | .predicate predicate :: rest => references.parseTest predicate rest
  | tokens => do
      let (left, rest) ← references.parseOperand tokens
      references.parseRelation left rest

/-- Read a condition behind any number of NOTs. -/
def parseNegation
    (references : References)
    (inner : List Token → Except ParseFailure (Condition × List Token)) :
    List Token → Except ParseFailure (Condition × List Token)
  | .not :: rest => do
      let (condition, rest) ← references.parseNegation inner rest
      return (.not condition, rest)
  | tokens => references.parsePrimary inner tokens

/-- Join the conditions behind the first one from left to right, each behind
`word`; `fuel` is at least the number of tokens. -/
def parseMore
    (word : Token)
    (connective : Connective)
    (part : List Token → Except ParseFailure (Condition × List Token)) :
    Nat → Condition → List Token → Except ParseFailure (Condition × List Token)
  | fuel + 1, left, token :: rest =>
      if token = word then do
        let (right, rest) ← part rest
        parseMore word connective part fuel (.joined connective left right) rest
      else
        .ok (left, token :: rest)
  | _, left, tokens => .ok (left, tokens)

/-- Read conditions with `word` between them, at least one. -/
def parseChain
    (word : Token)
    (connective : Connective)
    (part : List Token → Except ParseFailure (Condition × List Token))
    (tokens : List Token) :
    Except ParseFailure (Condition × List Token) := do
  let (left, rest) ← part tokens
  parseMore word connective part rest.length left rest

/-- Read a condition in which fewer than `depth` parentheses are open at once. -/
def parseCondition
    (references : References) :
    Nat → List Token → Except ParseFailure (Condition × List Token)
  | 0, tokens => .error ⟨.empty, tokens⟩
  | depth + 1, tokens =>
      parseChain .or .or
        (parseChain .and .and
          (references.parseNegation (references.parseCondition depth)))
        tokens

/-! ## Whole expressions -/

/-- The tokens of a text with at least one token. -/
def scanExpression (text : String) : Except ParseFailure (List Token) :=
  match Token.scan text.toList with
  | .error error => .error ⟨error, []⟩
  | .ok [.endOfInput] => .error ⟨.empty, []⟩
  | .ok tokens => .ok tokens

/-- The condition that the tokens are. -/
def condition
    (references : References)
    (tokens : List Token) :
    Except ParseFailure Condition := do
  let (condition, rest) ← references.parseCondition tokens.length tokens
  let (_, _) ← Token.expect .endOfInput rest
  return condition

/-- Read the paths behind the first one, each behind a comma; `fuel` is at least
the number of tokens. -/
def parseMorePaths
    (references : References) :
    Nat → List Token → Except ParseFailure (List Path × List Token)
  | fuel + 1, .comma :: rest => do
      let (path, rest) ← references.parsePath rest
      let (paths, rest) ← references.parseMorePaths fuel rest
      return (path :: paths, rest)
  | _, tokens => .ok ([], tokens)

/-- The paths of the projection that the tokens are. -/
def projection
    (references : References)
    (tokens : List Token) :
    Except ParseFailure (List Path) := do
  let (path, rest) ← references.parsePath tokens
  let (paths, rest) ← references.parseMorePaths rest.length rest
  let (_, _) ← Token.expect .endOfInput rest
  return path :: paths

end References

end ItemTable
