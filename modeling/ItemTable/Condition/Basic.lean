import ItemTable.AttributeValue.Basic
import ItemTable.Path

/-!
# Conditions

A condition is a tree of comparisons, ranges, memberships and predicates over
paths and literals, joined by AND, OR and NOT.  The constructors at the end
build the conditions on one key attribute, on any attribute and on the size of
an attribute.
-/

namespace ItemTable

/-- A comparison operator. -/
inductive Comparison where
  | equal
  | notEqual
  | less
  | lessOrEqual
  | greater
  | greaterOrEqual
deriving DecidableEq

namespace Comparison

/-- The written form of the operator. -/
def symbol : Comparison → String
  | equal => "="
  | notEqual => "<>"
  | less => "<"
  | lessOrEqual => "<="
  | greater => ">"
  | greaterOrEqual => ">="

/-- The operator that says the same with its operands exchanged. -/
def flip : Comparison → Comparison
  | equal => equal
  | notEqual => notEqual
  | less => greater
  | lessOrEqual => greaterOrEqual
  | greater => less
  | greaterOrEqual => lessOrEqual

/-- Whether the operator relates two things in the given order. -/
def holds : Comparison → Ordering → Bool
  | equal, order => order == .eq
  | notEqual, order => order != .eq
  | less, order => order == .lt
  | lessOrEqual, order => order != .gt
  | greater, order => order == .gt
  | greaterOrEqual, order => order != .lt

end Comparison

/-- How two conditions are joined. -/
inductive Connective where
  | and
  | or
deriving DecidableEq

/-- The written form of the connective. -/
def Connective.word : Connective → String
  | and => "AND"
  | or => "OR"

/-- A predicate that conditions may apply, written like a function. -/
inductive Predicate where
  | attributeExists
  | attributeNotExists
  | attributeType
  | beginsWith
  | contains
deriving DecidableEq

namespace Predicate

/-- The written name of the predicate. -/
def name : Predicate → String
  | attributeExists => "attribute_exists"
  | attributeNotExists => "attribute_not_exists"
  | attributeType => "attribute_type"
  | beginsWith => "begins_with"
  | contains => "contains"

/-- The number of arguments, of which the first is a path. -/
def arity : Predicate → Nat
  | attributeExists | attributeNotExists => 1
  | attributeType | beginsWith | contains => 2

end Predicate

/-- What a condition speaks about. -/
inductive Operand where
  /-- The value at a path. -/
  | path (path : Path)
  /-- A literal. -/
  | value (value : AttributeValue)
  /-- The size of the value at a path. -/
  | size (path : Path)
deriving DecidableEq

/-- A condition on an item. -/
inductive Condition where
  | compare (left : Operand) (operator : Comparison) (right : Operand)
  | between (value low high : Operand)
  /-- The value is one of the candidates. -/
  | among (value : Operand) (candidates : List Operand)
  | joined (connective : Connective) (left right : Condition)
  | not (inner : Condition)
  | test (predicate : Predicate) (arguments : List Operand)
deriving DecidableEq

namespace Condition

/-- Both conditions. -/
def and (left right : Condition) : Condition :=
  joined .and left right

/-- One of the conditions. -/
def or (left right : Condition) : Condition :=
  joined .or left right

/-- Whether the condition is joined from two. -/
def isJoined : Condition → Bool
  | joined .. => true
  | _ => false

/-! ## Construction -/

/-- The operand stands in the given relation to a literal. -/
def ofComparison
    (operand : Operand)
    (operator : Comparison)
    (value : AttributeValue) :
    Condition :=
  compare operand operator (.value value)

/-- The operand lies between two literals, both included. -/
def ofRange (operand : Operand) (low high : AttributeValue) : Condition :=
  between operand (.value low) (.value high)

/-- A predicate of the value at a path, with a literal if it takes one. -/
def ofPredicate
    (predicate : Predicate)
    (path : Path)
    (value : Option AttributeValue) :
    Condition :=
  test predicate (.path path :: (value.map Operand.value).toList)

/-- The value at the path is one of the literals. -/
def ofCandidates (path : Path) (values : List AttributeValue) : Condition :=
  among (.path path) (values.map .value)

end Condition

end ItemTable
