import ItemTable.Condition.Basic

/-!
# The form of conditions

A condition mentions operands from left to right, and these mention attribute
names and literals.  A condition is well formed if an expression can say it:
its paths begin with an attribute, a membership has candidates, and a predicate
has as many arguments as it takes, the first of which is a path.
-/

namespace ItemTable

/-! ## What a condition mentions -/

/-- The attribute names that a path goes through. -/
def Path.names (path : Path) : List String :=
  path.elements.filterMap fun
    | .attribute name => some name
    | .index _ => none

namespace Operand

/-- The attribute names of an operand. -/
def names : Operand → List String
  | path place | size place => place.names
  | value _ => []

/-- The literals of an operand. -/
def literals : Operand → List AttributeValue
  | value literal => [literal]
  | path _ | size _ => []

/-- The path of an operand. -/
def path? : Operand → Option Path
  | path place | size place => some place
  | value _ => none

end Operand

namespace Condition

/-- The operands of a condition, from left to right. -/
def operands : Condition → List Operand
  | compare left _ right => [left, right]
  | between value low high => [value, low, high]
  | among value candidates => value :: candidates
  | joined _ left right => left.operands ++ right.operands
  | not inner => inner.operands
  | test _ arguments => arguments

/-- The attribute names of a condition, from left to right. -/
def names (condition : Condition) : List String :=
  condition.operands.flatMap Operand.names

/-- The literals of a condition, from left to right. -/
def literals (condition : Condition) : List AttributeValue :=
  condition.operands.flatMap Operand.literals

section Mentions

variable (left right : Condition) (first second third : Operand)

@[simp]
theorem names_compare (operator : Comparison) :
    (compare first operator second).names = first.names ++ second.names := by
  simp [names, operands]

@[simp]
theorem literals_compare (operator : Comparison) :
    (compare first operator second).literals = first.literals ++ second.literals := by
  simp [literals, operands]

@[simp]
theorem names_between :
    (between first second third).names = first.names ++ (second.names ++ third.names) := by
  simp [names, operands]

@[simp]
theorem literals_between :
    (between first second third).literals =
      first.literals ++ (second.literals ++ third.literals) := by
  simp [literals, operands]

@[simp]
theorem names_among (candidates : List Operand) :
    (among first candidates).names =
      first.names ++ candidates.flatMap Operand.names :=
  rfl

@[simp]
theorem literals_among (candidates : List Operand) :
    (among first candidates).literals =
      first.literals ++ candidates.flatMap Operand.literals :=
  rfl

@[simp]
theorem names_joined (connective : Connective) :
    (joined connective left right).names = left.names ++ right.names := by
  simp [names, operands]

@[simp]
theorem literals_joined (connective : Connective) :
    (joined connective left right).literals = left.literals ++ right.literals := by
  simp [literals, operands]

@[simp]
theorem names_not : (not left).names = left.names :=
  rfl

@[simp]
theorem literals_not : (not left).literals = left.literals :=
  rfl

@[simp]
theorem names_test (predicate : Predicate) (arguments : List Operand) :
    (test predicate arguments).names = arguments.flatMap Operand.names :=
  rfl

@[simp]
theorem literals_test (predicate : Predicate) (arguments : List Operand) :
    (test predicate arguments).literals = arguments.flatMap Operand.literals :=
  rfl

end Mentions

end Condition

/-! ## Well-formedness -/

/-- Whether a path begins with an attribute. -/
def Path.isRooted (path : Path) : Bool :=
  path.root?.isSome

/-- Whether the indexes of a path are list indexes. -/
def Path.isBounded (path : Path) : Bool :=
  path.elements.all fun
    | .attribute _ => true
    | .index position => position < indexBound

/-- Whether the path of an operand begins with an attribute. -/
def Operand.isWellFormed (operand : Operand) : Bool :=
  operand.path?.all Path.isRooted

/-- Whether the arguments fit a predicate: as many as it takes, a path first. -/
def Predicate.accepts (predicate : Predicate) (arguments : List Operand) : Bool :=
  arguments.length == predicate.arity &&
    match arguments with
    | .path _ :: _ => true
    | _ => false

namespace Condition

/-- Whether an expression can say the condition. -/
def isWellFormed : Condition → Bool
  | compare left _ right => left.isWellFormed && right.isWellFormed
  | between value low high => value.isWellFormed && low.isWellFormed && high.isWellFormed
  | among value candidates =>
      value.isWellFormed && !candidates.isEmpty && candidates.all Operand.isWellFormed
  | joined _ left right => left.isWellFormed && right.isWellFormed
  | not inner => inner.isWellFormed
  | test predicate arguments =>
      arguments.all Operand.isWellFormed && predicate.accepts arguments

/-- Whether the indexes of all paths are list indexes. -/
def isBounded (condition : Condition) : Bool :=
  condition.operands.all fun operand => operand.path?.all Path.isBounded

end Condition

end ItemTable
