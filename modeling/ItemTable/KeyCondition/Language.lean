import ItemTable.Condition.Render

/-!
# The language of key conditions

A key condition joins comparisons, ranges and prefix tests of key attributes
with AND.  `Condition.checkKey` refuses every other construct before a request
is sent, and names the first one from left to right.
-/

namespace ItemTable

/-- Why a condition cannot be a key condition. -/
inductive KeyConditionFault where
  /-- The construct, by its name, has no place there. -/
  | unsupported (construct : String)
  /-- A key attribute is not a field of another attribute. -/
  | nestedAttribute (path : Path)
  /-- A query has no key condition at all. -/
  | missing
deriving DecidableEq

/-- The explanation of the fault. -/
def KeyConditionFault.message : KeyConditionFault → String
  | unsupported construct => construct ++ " is not supported in a key condition"
  | nestedAttribute path =>
      "key attribute " ++ path.display ++ " must be a top-level attribute"
  | missing => "Query requires a key condition"

/-- Check an operand of a key condition: a literal or an attribute of the item. -/
def Operand.checkKey : Operand → Except KeyConditionFault Unit
  | size _ => .error (.unsupported "size()")
  | path place => if place.isTopLevel then .ok () else .error (.nestedAttribute place)
  | value _ => .ok ()

/-- Check that a condition is in the language of key conditions. -/
def Condition.checkKey : Condition → Except KeyConditionFault Unit
  | joined .and left right => do
      left.checkKey
      right.checkKey
  | joined .or _ _ => .error (.unsupported "OR")
  | not _ => .error (.unsupported "NOT")
  | among _ _ => .error (.unsupported "IN")
  | compare left operator right =>
      if operator = .notEqual then
        .error (.unsupported ("operator " ++ operator.symbol))
      else do
        left.checkKey
        right.checkKey
  | between value low high => do
      value.checkKey
      low.checkKey
      high.checkKey
  | test .beginsWith arguments => arguments.forM Operand.checkKey
  | test predicate _ => .error (.unsupported ("function " ++ predicate.name))

/-- Render a key condition.  A condition that is refused takes no placeholders. -/
def PlaceholderTable.renderKeyCondition
    (table : PlaceholderTable)
    (condition : Condition) :
    Except KeyConditionFault (String × PlaceholderTable) := do
  condition.checkKey
  return table.render condition

end ItemTable
