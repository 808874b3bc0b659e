import ItemTable.Document
import ItemTable.Form.Condition
import ItemTable.Service.Dispatch

/-!
# Forms of documents

The form of a document has a member for everything that the document says.  A
condition or a projection is under `raw` as long as it is not rendered, and
under `compiled` afterwards.
-/

namespace ItemTable

/-- Read a condition of a document. -/
def ExpressionField.ofForm? (form : Json) : Option ExpressionField :=
  (form.need? "raw" fun condition => (Condition.ofForm? condition).map raw)
    <|> (form.need? "compiled" Json.string?).map compiled

/-- The form of a condition of a document. -/
def ExpressionField.toForm : ExpressionField → Json
  | raw condition => .object [("raw", condition.toForm)]
  | compiled text => .object [("compiled", .string text)]

/-- Read the projection of a document. -/
def ProjectionField.ofForm? (form : Json) : Option ProjectionField :=
  (form.need? "raw" fun entries => (entries.listOf? Json.string?).map raw)
    <|> (form.need? "compiled" Json.string?).map compiled

/-- The form of the projection of a document. -/
def ProjectionField.toForm : ProjectionField → Json
  | raw entries => .object [("raw", .array (entries.map .string))]
  | compiled text => .object [("compiled", .string text)]

namespace Document

/-- Read a written form of a select or a capacity detail. -/
def ofNamed? {α : Type} (ofName? : String → Option α) (form : Json) : Option α :=
  form.string? >>= ofName?

/-- Read a document. -/
def ofForm? (form : Json) : Option Document := do
  let item (name : String) : Option Item := do
    return (← form.maybe? name Item.ofForm?).getD ∅
  return {
    tableName := ← form.need? "table_name" Json.string?
    index := ← form.maybe? "index_name" Json.string?
    key := ← item "key"
    item := ← item "item"
    keyCondition := ← form.maybe? "key_condition" ExpressionField.ofForm?
    filter := ← form.maybe? "filter" ExpressionField.ofForm?
    condition := ← form.maybe? "condition" ExpressionField.ofForm?
    projection := ← form.maybe? "projection" ProjectionField.ofForm?
    names := (← form.maybe? "names" (Json.namesOf? Json.string?)).getD ∅
    values := ← item "values"
    consistent := ← form.maybe? "consistent_read" Json.bool?
    limit := ← form.maybe? "limit" Json.nat?
    forward := ← form.maybe? "scan_index_forward" Json.bool?
    select := ← form.maybe? "select" (ofNamed? Select.ofName?)
    start := ← item "exclusive_start_key"
    capacity := ← form.maybe? "return_consumed_capacity" (ofNamed? CapacityDetail.ofName?) }

/-- The form of a document, without members that say nothing. -/
def toForm (document : Document) : Json :=
  .object
    ([("table_name", .string document.tableName)] ++
      Json.optionalMember "index_name" .string document.index ++
      item "key" document.key ++
      item "item" document.item ++
      Json.optionalMember "key_condition" ExpressionField.toForm document.keyCondition ++
      Json.optionalMember "filter" ExpressionField.toForm document.filter ++
      Json.optionalMember "condition" ExpressionField.toForm document.condition ++
      Json.optionalMember "projection" ProjectionField.toForm document.projection ++
      (if document.names.isEmpty then [] else [("names", .ofTexts document.names)]) ++
      item "values" document.values ++
      Json.optionalMember "consistent_read" .bool document.consistent ++
      Json.optionalMember "limit" .ofNat document.limit ++
      Json.optionalMember "scan_index_forward" .bool document.forward ++
      Json.optionalMember "select" (fun select => .string select.name) document.select ++
      item "exclusive_start_key" document.start ++
      Json.optionalMember "return_consumed_capacity" (fun detail => .string detail.name)
        document.capacity)
where
  item (name : String) (fields : Item) : List (String × Json) :=
    if fields.isEmpty then [] else [(name, fields.toJson)]

end Document

/-- The form of a page. -/
def Page.toForm (page : Page) : Json :=
  .object
    ([("items", .array (page.items.map Item.toJson)),
      ("count", .ofNat page.count),
      ("scanned_count", .ofNat page.scannedCount),
      ("last_evaluated_key", page.lastKey.toJson)] ++
      Json.optionalMember "consumed_capacity" ConsumedCapacity.toJson page.capacity)

end ItemTable
