import ItemTable.Condition.Basic
import ItemTable.Form.Basic

/-!
# Forms of conditions

The form of a condition is a tree of nodes, each with the name of its kind under
`node`.  Conditions on one attribute, on a key attribute or on the size of an
attribute have a short form: what they are about, the name of a test under `fn`
and the literals of the test under `args`.
-/

namespace ItemTable

/-- Read the written form of an operator. -/
def Comparison.ofSymbol? : String → Option Comparison
  | "=" => some equal
  | "<>" => some notEqual
  | "<" => some less
  | "<=" => some lessOrEqual
  | ">" => some greater
  | ">=" => some greaterOrEqual
  | _ => none

/-- Read the name that an operator has in short forms. -/
def Comparison.ofTest? : String → Option Comparison
  | "eq" => some equal
  | "ne" => some notEqual
  | "lt" => some less
  | "lte" => some lessOrEqual
  | "gt" => some greater
  | "gte" => some greaterOrEqual
  | _ => none

/-- Read the written name of a predicate. -/
def Predicate.ofName? : String → Option Predicate
  | "attribute_exists" => some attributeExists
  | "attribute_not_exists" => some attributeNotExists
  | "attribute_type" => some attributeType
  | "begins_with" => some beginsWith
  | "contains" => some contains
  | _ => none

/-- Read the name that a predicate has in short forms. -/
def Predicate.ofTest? : String → Option Predicate
  | "exists" => some attributeExists
  | "not_exists" => some attributeNotExists
  | "attribute_type" => some attributeType
  | "begins_with" => some beginsWith
  | "contains" => some contains
  | _ => none

/-- Read an operand. -/
def Operand.ofForm? (form : Json) : Option Operand :=
  (form.need? "path" fun place => (Path.ofForm? place).map path)
    <|> (form.need? "value" fun literal => (AttributeValue.ofForm? literal).map value)
    <|> form.need? "size" fun place => (Path.ofForm? place).map size

/-- The form of an operand. -/
def Operand.toForm : Operand → Json
  | path place => .object [("path", place.toForm)]
  | value literal => .object [("value", literal.toJson)]
  | size place => .object [("size", place.toForm)]

namespace Condition

/-! ## Reading -/

/-- The condition that a test makes of an operand and literals. -/
def ofTest? (operand : Operand) (place : Path) (name : String) :
    List AttributeValue → Option Condition
  | [] =>
      if name = "is_in" then
        some (ofCandidates place [])
      else
        (Predicate.ofTest? name).map fun predicate => ofPredicate predicate place none
  | [literal] =>
      if name = "is_in" then
        some (ofCandidates place [literal])
      else
        ((Comparison.ofTest? name).map fun operator => ofComparison operand operator literal)
          <|> (Predicate.ofTest? name).map fun predicate =>
            ofPredicate predicate place (some literal)
  | [low, high] =>
      if name = "between" then
        some (ofRange operand low high)
      else if name = "is_in" then
        some (ofCandidates place [low, high])
      else
        none
  | literals => if name = "is_in" then some (ofCandidates place literals) else none

/-- Read the short form of a condition. -/
def ofShortForm? (form : Json) : Option Condition := do
  let (operand, place) ←
    (form.need? "key" value) <|> (form.need? "attr" value) <|> form.need? "size" size
  let name ← form.need? "fn" Json.string?
  let literals ← form.maybe? "args" (Json.listOf? AttributeValue.ofForm?)
  ofTest? operand place name (literals.getD [])
where
  value (place : Json) : Option (Operand × Path) :=
    (Path.ofForm? place).map fun path => (.path path, path)
  size (place : Json) : Option (Operand × Path) :=
    (Path.ofForm? place).map fun path => (.size path, path)

/-- Join conditions from left to right. -/
def joinAll? (connective : Connective) : List Condition → Option Condition
  | [] => none
  | first :: others => some (others.foldl (joined connective) first)

/-- Read a condition; `fuel` is at least the height of its form. -/
def ofNode? : Nat → Json → Option Condition
  | 0, _ => none
  | fuel + 1, form =>
      let part (name : String) : Option Condition := form.need? name (ofNode? fuel)
      let parts (name : String) : Option (List Condition) :=
        form.need? name (Json.listOf? (ofNode? fuel))
      match form.need? "node" Json.string? with
      | some "compare" => do
          let left ← form.need? "left" Operand.ofForm?
          let right ← form.need? "right" Operand.ofForm?
          let symbol ← form.need? "op" Json.string?
          return compare left (← Comparison.ofSymbol? symbol) right
      | some "between" => do
          let value ← form.need? "value" Operand.ofForm?
          let low ← form.need? "low" Operand.ofForm?
          return between value low (← form.need? "high" Operand.ofForm?)
      | some "in" => do
          let value ← form.need? "value" Operand.ofForm?
          return among value (← form.need? "list" (Json.listOf? Operand.ofForm?))
      | some "and" => do return joined .and (← part "left") (← part "right")
      | some "or" => do return joined .or (← part "left") (← part "right")
      | some "not" => (part "inner").map not
      | some "function" => do
          let predicate ← form.need? "name" Json.string? >>= Predicate.ofName?
          return test predicate (← form.need? "args" (Json.listOf? Operand.ofForm?))
      | some _ => none
      | none =>
          (parts "and" >>= joinAll? .and)
            <|> (parts "or" >>= joinAll? .or)
            <|> (part "not").map not
            <|> ofShortForm? form

/-- Read a condition. -/
def ofForm? (form : Json) : Option Condition :=
  ofNode? form.height form

/-! ## Writing -/

/-- A node of a kind. -/
def node (kind : String) (members : List (String × Json)) : Json :=
  .object (("node", .string kind) :: members)

/-- The form of a condition, always a tree of nodes. -/
def toForm : Condition → Json
  | compare left operator right =>
      node "compare"
        [("left", left.toForm), ("op", .string operator.symbol), ("right", right.toForm)]
  | between value low high =>
      node "between" [("value", value.toForm), ("low", low.toForm), ("high", high.toForm)]
  | among value candidates =>
      node "in" [("value", value.toForm), ("list", .array (candidates.map Operand.toForm))]
  | joined .and left right => node "and" [("left", left.toForm), ("right", right.toForm)]
  | joined .or left right => node "or" [("left", left.toForm), ("right", right.toForm)]
  | not inner => node "not" [("inner", inner.toForm)]
  | test predicate arguments =>
      node "function"
        [("name", .string predicate.name), ("args", .array (arguments.map Operand.toForm))]

end Condition

end ItemTable
