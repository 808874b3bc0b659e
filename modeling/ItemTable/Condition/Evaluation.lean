import ItemTable.Expression.Error
import ItemTable.Number.Numeral
import ItemTable.Resolution

/-!
# Evaluating conditions

A condition holds of an item or not.  A comparison in which something is
missing does not hold, and values of different kinds are neither equal nor
ordered.  Numbers are compared as binary64 numbers; a text that denotes no
number makes the comparison an error.

AND and OR look at their second condition only if the first leaves the outcome
open, so an error there may stay unnoticed.
-/

namespace ItemTable

namespace AttributeValue

/-- The number that a text denotes, for a comparison. -/
def readNumber (text : String) : Except ExpressionError Binary64 :=
  match Binary64.ofText? text with
  | some value => .ok value
  | none => .error (.notANumber text)

/-- The order of two values, if they are of one ordered kind. -/
def order?
    (left right : AttributeValue) :
    Except ExpressionError (Option Ordering) :=
  match left, right with
  | string left, string right => .ok (some (compare left right))
  | number left, number right => do
      let left ← readNumber left
      let right ← readNumber right
      return left.compare? right
  | binary left, binary right => .ok (some (compare left right))
  | _, _ => .ok none

/-- Whether two values stand in a relation. -/
def relates
    (left : AttributeValue)
    (operator : Comparison)
    (right : AttributeValue) :
    Except ExpressionError Bool := do
  match ← left.order? right with
  | some order => return operator.holds order
  | none =>
      return match operator with
        | .equal => left = right
        | .notEqual => left ≠ right
        | _ => false

/-- Whether a text or a sequence of bytes begins with another. -/
def beginsWith : AttributeValue → AttributeValue → Bool
  | string text, string start => start.toList.isPrefixOf text.toList
  | binary bytes, binary start => start.isPrefixOf bytes
  | _, _ => false

/-- Whether `part` occurs in the list without interruption. -/
def occursIn {α : Type} [BEq α] (part : List α) : List α → Bool
  | [] => part.isEmpty
  | first :: rest => part.isPrefixOf (first :: rest) || occursIn part rest

/-- Whether a text contains another, or a set or list a member. -/
def contains : AttributeValue → AttributeValue → Bool
  | string text, string part => occursIn part.toList text.toList
  | stringSet texts, string text => texts.contains text
  | numberSet texts, number text => texts.contains text
  | binarySet members, binary bytes => members.contains bytes
  | list items, item => items.contains item
  | _, _ => false

end AttributeValue

/-- Whether a predicate holds of an item. -/
def Predicate.holds
    (predicate : Predicate)
    (arguments : List Operand)
    (item : Item) :
    Except ExpressionError Bool :=
  match arguments with
  | .path place :: others =>
      let target := item.resolve? place
      let argument := others.head? >>= fun operand => operand.resolve? item
      match predicate with
      | attributeExists => .ok target.isSome
      | attributeNotExists => .ok target.isNone
      | attributeType =>
          match argument with
          | some (.string kind) => .ok (target.any fun value => value.kind == kind)
          | _ => .error .notAKind
      | beginsWith =>
          match target, argument with
          | some value, some start => .ok (value.beginsWith start)
          | _, _ => .ok false
      | contains =>
          match target, argument with
          | some value, some member => .ok (value.contains member)
          | _, _ => .ok false
  | _ => .error (.notAPath predicate)

namespace Condition

/-- Whether a value equals one of the candidates that have a value. -/
def equalsOne
    (value : AttributeValue)
    (item : Item) :
    List Operand → Except ExpressionError Bool
  | [] => .ok false
  | candidate :: candidates =>
      match candidate.resolve? item with
      | none => equalsOne value item candidates
      | some other => do
          if ← value.relates .equal other then
            return true
          else
            equalsOne value item candidates

/-- Whether the condition holds of an item. -/
def holds (item : Item) : Condition → Except ExpressionError Bool
  | compare left operator right =>
      match left.resolve? item, right.resolve? item with
      | some left, some right => left.relates operator right
      | _, _ => .ok false
  | between value low high =>
      match value.resolve? item, low.resolve? item, high.resolve? item with
      | some value, some low, some high => do
          if ← value.relates .greaterOrEqual low then
            value.relates .lessOrEqual high
          else
            return false
      | _, _, _ => .ok false
  | among value candidates =>
      match value.resolve? item with
      | some value => equalsOne value item candidates
      | none => .ok false
  | joined .and left right => do
      if ← holds item left then holds item right else return false
  | joined .or left right => do
      if ← holds item left then return true else holds item right
  | not inner => do return !(← holds item inner)
  | test predicate arguments => predicate.holds arguments item

end Condition

end ItemTable
