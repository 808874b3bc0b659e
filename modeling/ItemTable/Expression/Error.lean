import ItemTable.Condition.Basic

/-!
# Expression errors

What can be wrong with the text of an expression, with its placeholders, and
with the values that a condition meets in an item.
-/

namespace ItemTable

/-- Why an expression is refused or cannot be evaluated. -/
inductive ExpressionError where
  /-- Something stands where something else has to stand. -/
  | unexpected (found expected : String)
  /-- The expression has no tokens. -/
  | empty
  /-- A name placeholder stands for nothing. -/
  | unresolvedName (placeholder : String)
  /-- A literal placeholder stands for nothing. -/
  | unresolvedValue (placeholder : String)
  /-- Name placeholders that no expression mentions. -/
  | unusedNames (placeholders : List String)
  /-- Literal placeholders that no expression mentions. -/
  | unusedValues (placeholders : List String)
  /-- The digits denote no list index. -/
  | indexTooLarge (digits : String)
  /-- A predicate has so many arguments, which are too few or too many. -/
  | wrongArity (predicate : Predicate) (arguments : Nat)
  /-- The first argument of a predicate is no path. -/
  | notAPath (predicate : Predicate)
  /-- A number is compared whose text denotes none. -/
  | notANumber (text : String)
  /-- The kind that an attribute is tested for is not a string. -/
  | notAKind
deriving DecidableEq

namespace ExpressionError

/-- Placeholders as a message lists them. -/
def listing (placeholders : List String) : String :=
  ", ".intercalate placeholders

/-- The explanation of the error. -/
def message : ExpressionError → String
  | unexpected found expected =>
      "Syntax error; token: " ++ found ++ ", expected: " ++ expected
  | empty => "The expression can not be empty"
  | unresolvedName placeholder =>
      "An expression attribute name used in the document path is not defined; " ++
        "attribute name: " ++ placeholder
  | unresolvedValue placeholder =>
      "An expression attribute value used in expression is not defined; " ++
        "attribute value: " ++ placeholder
  | unusedNames placeholders =>
      "Value provided in ExpressionAttributeNames unused in expressions: " ++
        "keys: \x7b" ++ listing placeholders ++ "\x7d"
  | unusedValues placeholders =>
      "Value provided in ExpressionAttributeValues unused in expressions: " ++
        "keys: \x7b" ++ listing placeholders ++ "\x7d"
  | indexTooLarge digits =>
      "Invalid operand for list index: '" ++ digits ++ "' is not a valid index"
  | wrongArity predicate arguments =>
      "Invalid operand for " ++ predicate.name ++ ": expected " ++
        toString predicate.arity ++ " argument(s), found " ++ toString arguments
  | notAPath predicate =>
      "Invalid operand for " ++ predicate.name ++
        ": the first argument must be a document path"
  | notANumber text => "Type mismatch: '" ++ text ++ "' is not a valid number"
  | notAKind => "Type mismatch: attribute_type expects a type descriptor string"

end ExpressionError

end ItemTable
