import ItemTable.Form.Basic
import ItemTable.KeySchema

/-!
# Forms of key schemas

A key schema lists the name and the kind of each key attribute, and a condition
on sort keys the name of a test with one or two key values.
-/

namespace ItemTable

/-- Read a key attribute, a pair of a name and a kind. -/
def KeyAttribute.ofForm? : Json → Option KeyAttribute
  | .array [.string name, .string kind] => (KeyKind.ofName? kind).map fun kind => ⟨name, kind⟩
  | _ => none

/-- The form of a key attribute. -/
def KeyAttribute.toForm (member : KeyAttribute) : Json :=
  .array [.string member.name, .string member.kind.name]

/-- Read a key schema. -/
def KeySchema.ofForm? (form : Json) : Option KeySchema := do
  let partition ← form.need? "pk" KeyAttribute.ofForm?
  return { partition, sort := ← form.maybe? "sk" KeyAttribute.ofForm? }

/-- Read a key value of any kind; a null is the absent one. -/
def KeyValue.ofForm? : Json → Option KeyValue
  | .null => some absent
  | form =>
      match AttributeValue.ofForm? form with
      | some (.string text) => some (string text)
      | some (.number text) => some (number text)
      | some (.binary bytes) => some (binary bytes)
      | _ => none

/-- The form of a key value. -/
def KeyValue.toForm (key : KeyValue) : Json :=
  Json.orNull AttributeValue.toJson key.value?

/-- Read a condition on sort keys. -/
def SortCondition.ofForm? (form : Json) : Option SortCondition := do
  let value ← KeyValue.ofForm? ((form.member? "value").getD .null)
  match ← form.need? "cond" Json.string? with
  | "eq" => some (equal value)
  | "lt" => some (less value)
  | "le" => some (lessOrEqual value)
  | "gt" => some (greater value)
  | "ge" => some (greaterOrEqual value)
  | "begins_with" => some (beginsWith value)
  | "between" => (KeyValue.ofForm? ((form.member? "high").getD .null)).map (between value)
  | _ => none

end ItemTable
