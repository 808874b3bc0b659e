import ItemTable.Condition.Basic
import ItemTable.Placeholder
import ItemTable.Text.Blank

/-!
# Rendering conditions and projections

A condition is written with placeholders for its names and literals and with
parentheses around everything that has parts, so the text of a part does not
depend on where it stands.  Placeholders are taken from a table in the order in
which the text mentions them.
-/

namespace ItemTable.PlaceholderTable

/-! ## Paths and operands -/

/-- The elements of a path behind the first ones. -/
def renderElements
    (table : PlaceholderTable) :
    List PathElement → String × PlaceholderTable
  | [] => ("", table)
  | .attribute name :: elements =>
      let (placeholder, table) := table.name name
      let (rest, table) := table.renderElements elements
      ("." ++ placeholder ++ rest, table)
  | .index position :: elements =>
      let (rest, table) := table.renderElements elements
      ("[" ++ position.repr ++ "]" ++ rest, table)

/-- A path, with a placeholder for every name. -/
def renderPath (table : PlaceholderTable) (path : Path) : String × PlaceholderTable :=
  match path.elements with
  | .attribute name :: elements =>
      let (placeholder, table) := table.name name
      let (rest, table) := table.renderElements elements
      (placeholder ++ rest, table)
  | elements => table.renderElements elements

/-- An operand. -/
def renderOperand (table : PlaceholderTable) : Operand → String × PlaceholderTable
  | .path path => table.renderPath path
  | .value value => table.value value
  | .size path =>
      let (text, table) := table.renderPath path
      ("size(" ++ text ++ ")", table)

/-- Operands with commas between them. -/
def renderOperands
    (table : PlaceholderTable) :
    List Operand → String × PlaceholderTable
  | [] => ("", table)
  | [operand] => table.renderOperand operand
  | operand :: operands =>
      let (first, table) := table.renderOperand operand
      let (rest, table) := table.renderOperands operands
      (first ++ ", " ++ rest, table)

/-! ## Conditions -/

/-- A condition. -/
def render (table : PlaceholderTable) : Condition → String × PlaceholderTable
  | .compare left operator right =>
      let (left, table) := table.renderOperand left
      let (right, table) := table.renderOperand right
      ("(" ++ left ++ " " ++ operator.symbol ++ " " ++ right ++ ")", table)
  | .between value low high =>
      let (value, table) := table.renderOperand value
      let (low, table) := table.renderOperand low
      let (high, table) := table.renderOperand high
      ("(" ++ value ++ " BETWEEN " ++ low ++ " AND " ++ high ++ ")", table)
  | .among value candidates =>
      let (value, table) := table.renderOperand value
      let (candidates, table) := table.renderOperands candidates
      ("(" ++ value ++ " IN (" ++ candidates ++ "))", table)
  | .joined connective left right =>
      let (left, table) := table.render left
      let (right, table) := table.render right
      ("(" ++ left ++ " " ++ connective.word ++ " " ++ right ++ ")", table)
  | .not inner =>
      let (inner, table) := table.render inner
      ("(NOT " ++ inner ++ ")", table)
  | .test predicate arguments =>
      let (arguments, table) := table.renderOperands arguments
      (predicate.name ++ "(" ++ arguments ++ ")", table)

/-! ## Projections -/

/-- The names that the entries of a projection list: entries hold names between
commas, blanks around a name do not count, and neither do empty names and
repetitions. -/
def projectedNames (entries : List String) : List String :=
  let names := entries.flatMap fun entry =>
    (Text.split ',' entry.toList).map fun name => String.ofList (Text.trim name)
  (names.filter (!·.isEmpty)).eraseDups

/-- The paths of the names, with commas between them. -/
def renderNames
    (table : PlaceholderTable) :
    List String → String × PlaceholderTable
  | [] => ("", table)
  | [name] => table.renderPath (Path.parse name)
  | name :: names =>
      let (first, table) := table.renderPath (Path.parse name)
      let (rest, table) := table.renderNames names
      (first ++ "," ++ rest, table)

/-- A projection; none if its entries list no names. -/
def renderProjection
    (table : PlaceholderTable)
    (entries : List String) :
    Option String × PlaceholderTable :=
  match projectedNames entries with
  | [] => (none, table)
  | names =>
      let (text, table) := table.renderNames names
      (some text, table)

end ItemTable.PlaceholderTable

namespace ItemTable

/-- An expression together with what its placeholders stand for. -/
structure CompiledExpression where
  expression : String
  names : NameMap String
  values : NameMap AttributeValue

/-- A condition on its own, with placeholders numbered from zero. -/
def Condition.compile (condition : Condition) : CompiledExpression :=
  let (expression, table) := PlaceholderTable.start.render condition
  { expression, names := table.names.meanings, values := table.values.meanings }

end ItemTable
