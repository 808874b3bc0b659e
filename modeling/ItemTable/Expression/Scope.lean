import ItemTable.Expression.Parse

/-!
# Expressions of one request

All expressions of a request share its placeholders, and every placeholder that
a request explains has to be mentioned by one of them.  A `Scope` reads the
expressions one after the other and notes which placeholders were resolved, in
expressions that turned out to be wrong as well.
-/

namespace ItemTable

/-- The placeholders of a request, and which were mentioned so far. -/
structure Scope where
  references : References
  usedNames : List String
  usedValues : List String

namespace Scope

/-- The scope of a request whose expressions have not been read. -/
def start (names : NameMap String) (values : NameMap AttributeValue) : Scope where
  references := ⟨names, values⟩
  usedNames := []
  usedValues := []

/-- The name placeholders among tokens. -/
def namesIn (tokens : List Token) : List String :=
  tokens.filterMap fun
    | .name word => some ("#" ++ word)
    | _ => none

/-- The literal placeholders among tokens. -/
def valuesIn (tokens : List Token) : List String :=
  tokens.filterMap fun
    | .value word => some (":" ++ word)
    | _ => none

/-- Note the placeholders among tokens as mentioned. -/
def mention (scope : Scope) (tokens : List Token) : Scope :=
  { scope with
    usedNames := scope.usedNames ++ namesIn tokens
    usedValues := scope.usedValues ++ valuesIn tokens }

/-- Read an expression.  All its placeholders are mentioned if it can be read,
otherwise those before the place where reading stopped. -/
def parse
    {α : Type}
    (scope : Scope)
    (parser : References → List Token → Except ParseFailure α)
    (text : String) :
    Except ExpressionError α × Scope :=
  match References.scanExpression text with
  | .error failure => (.error failure.error, scope)
  | .ok tokens =>
      match parser scope.references tokens with
      | .ok result => (.ok result, scope.mention tokens)
      | .error failure =>
          (.error failure.error,
            scope.mention (tokens.take (tokens.length - failure.remaining.length)))

/-- Read a condition. -/
def condition (scope : Scope) (text : String) : Except ExpressionError Condition × Scope :=
  scope.parse References.condition text

/-- Read a projection. -/
def projection (scope : Scope) (text : String) : Except ExpressionError (List Path) × Scope :=
  scope.parse References.projection text

/-- The placeholders that are explained but were not mentioned, in order. -/
def leftOver (explained used : List String) : List String :=
  explained.filter (!used.contains ·)

/-- Fail if a placeholder of the request was never mentioned.  There are such placeholders
if there is something to list, so the empty one does not count when it is alone. -/
def finish (scope : Scope) : Except ExpressionError Unit :=
  let names := leftOver scope.references.names.names scope.usedNames
  let values := leftOver scope.references.values.names scope.usedValues
  if ExpressionError.listing names ≠ "" then
    .error (.unusedNames names)
  else if ExpressionError.listing values ≠ "" then
    .error (.unusedValues values)
  else
    .ok ()

end Scope

end ItemTable
