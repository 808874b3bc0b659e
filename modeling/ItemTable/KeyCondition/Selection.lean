import ItemTable.Condition.Basic
import ItemTable.KeySchema

/-!
# What a key condition selects

A key condition selects one partition of a table or an index, by an equality of
its partition key, and perhaps some of the sort keys there.  Its clauses may
come in any order and with the literal on either side of a comparison.

`KeySchema.selection` reads a condition in this way.  It looks for connectives
other than AND first and then at the clauses from left to right.
-/

namespace ItemTable

/-- Why a condition selects no part of a table. -/
inductive SelectionFault where
  /-- An operator that has no place in a key condition. -/
  | operator (word : String)
  /-- A predicate other than `begins_with`. -/
  | predicate (predicate : Predicate)
  /-- A comparison of something else than an attribute and a literal. -/
  | comparisonShape
  /-- A range of something else than an attribute between literals. -/
  | rangeShape
  /-- A range whose ends are in the wrong order. -/
  | rangeOrder
  /-- A prefix test of something else than an attribute and a literal. -/
  | prefixShape
  /-- A prefix that is neither a string nor a binary. -/
  | prefixKind
  /-- A key attribute is not a field of another attribute. -/
  | nestedAttribute
  /-- The partition key is compared otherwise than for equality. -/
  | partitionComparison (name : String)
  /-- Two clauses speak about one key attribute. -/
  | repeatedAttribute
  /-- The attribute is no key attribute. -/
  | notAKey (name : String)
  /-- No clause speaks about the partition key. -/
  | missingPartition (name : String)
  /-- A literal has another kind than the key attribute. -/
  | wrongKind (name : String)
deriving DecidableEq

namespace SelectionFault

/-- What of the condition is not supported, if that is the fault. -/
def unsupported? : SelectionFault → Option String
  | operator word => some ("unsupported operator " ++ word)
  | predicate test => some ("unsupported function " ++ test.name)
  | comparisonShape => some "key comparisons need one attribute and one value"
  | rangeShape => some "BETWEEN needs an attribute and two values"
  | rangeOrder => some "the BETWEEN lower bound is greater than the upper bound"
  | prefixShape => some "begins_with needs an attribute and a value"
  | prefixKind => some "begins_with needs a string or binary prefix"
  | nestedAttribute => some "nested attributes are not key attributes"
  | partitionComparison name =>
      some ("the partition key " ++ name ++ " only supports equality")
  | repeatedAttribute => some "a key attribute may be used only once"
  | notAKey _ | missingPartition _ | wrongKind _ => none

/-- The explanation of the fault. -/
def message (fault : SelectionFault) : String :=
  match fault with
  | notAKey name =>
      "Query condition missed key schema element: " ++ name ++ " is not a key attribute"
  | missingPartition name => "Query condition missed key schema element: " ++ name
  | wrongKind name =>
      "One or more parameter values were invalid: Condition parameter type " ++
        "does not match schema type for key attribute " ++ name
  | other => "Query key condition not supported: " ++ other.unsupported?.getD ""

end SelectionFault

/-! ## Clauses -/

/-- What one clause of a key condition asks. -/
inductive KeyClause where
  /-- The partition key has the value. -/
  | partition (value : AttributeValue)
  | sort (condition : SortCondition)

/-- The part of a table or an index that a key condition selects. -/
structure KeySelection where
  partition : AttributeValue
  sort : Option SortCondition

/-- The conditions that a condition joins with AND, from left to right. -/
def Condition.conjuncts : Condition → Except SelectionFault (List Condition)
  | joined .and left right => do
      let lefts ← left.conjuncts
      let rights ← right.conjuncts
      return lefts ++ rights
  | joined .or _ _ => .error (.operator Connective.or.word)
  | not _ => .error (.operator "NOT")
  | leaf => .ok [leaf]

/-- The attribute that a path of a clause names. -/
def Path.keyName (path : Path) : Except SelectionFault String :=
  match path.elements with
  | [.attribute name] => .ok name
  | _ => .error .nestedAttribute

/-- The literal of a clause as a value of the key attribute. -/
def KeyAttribute.literal
    (member : KeyAttribute)
    (value : AttributeValue) :
    Except SelectionFault KeyValue :=
  match KeyValue.ofValue? member.kind value with
  | some key => .ok key
  | none => .error (.wrongKind member.name)

/-- What a comparison asks of a sort key. -/
def SortCondition.ofComparison
    (operator : Comparison)
    (value : KeyValue) :
    Except SelectionFault SortCondition :=
  match operator with
  | .equal => .ok (equal value)
  | .less => .ok (less value)
  | .lessOrEqual => .ok (lessOrEqual value)
  | .greater => .ok (greater value)
  | .greaterOrEqual => .ok (greaterOrEqual value)
  | .notEqual => .error (.operator operator.symbol)

namespace KeySchema

/-- The sort key, if it has the given name. -/
def sortNamed (schema : KeySchema) (name : String) : Except SelectionFault KeyAttribute :=
  match schema.sort.filter fun member => member.name == name with
  | some member => .ok member
  | none => .error (.notAKey name)

/-- The clause that compares the attribute at a path with a literal. -/
def comparisonClause
    (schema : KeySchema)
    (place : Path)
    (operator : Comparison)
    (value : AttributeValue) :
    Except SelectionFault KeyClause := do
  let name ← place.keyName
  if name = schema.partition.name then
    if operator = .equal then
      let _ ← schema.partition.literal value
      return .partition value
    else
      .error (.partitionComparison name)
  else
    let member ← schema.sortNamed name
    let key ← member.literal value
    return .sort (← SortCondition.ofComparison operator key)

/-- The clause that a condition is. -/
def clause (schema : KeySchema) : Condition → Except SelectionFault KeyClause
  | .compare (.path place) operator (.value value) =>
      schema.comparisonClause place operator value
  | .compare (.value value) operator (.path place) =>
      schema.comparisonClause place operator.flip value
  | .compare .. => .error .comparisonShape
  | .between (.path place) (.value low) (.value high) => do
      let member ← schema.sortNamed (← place.keyName)
      let low ← member.literal low
      let high ← member.literal high
      if (low.order high).isGT then
        .error .rangeOrder
      else
        return .sort (.between low high)
  | .between .. => .error .rangeShape
  | .test .beginsWith [.path place, .value start] => do
      let member ← schema.sortNamed (← place.keyName)
      match start with
      | .string _ | .binary _ => return .sort (.beginsWith (← member.literal start))
      | _ => .error .prefixKind
  | .test .beginsWith _ => .error .prefixShape
  | .test predicate _ => .error (.predicate predicate)
  | .among .. => .error (.operator "IN")
  | .joined connective _ _ => .error (.operator connective.word)
  | .not _ => .error (.operator "NOT")

/-- Add a clause to those for the partition key and the sort key so far. -/
def addClause
    (schema : KeySchema)
    (found : Option AttributeValue × Option SortCondition)
    (leaf : Condition) :
    Except SelectionFault (Option AttributeValue × Option SortCondition) := do
  match ← schema.clause leaf, found with
  | .partition value, (none, sort) => return (some value, sort)
  | .sort condition, (partition, none) => return (partition, some condition)
  | _, _ => .error .repeatedAttribute

/-- The part of a table or an index that a condition selects. -/
def selection
    (schema : KeySchema)
    (condition : Condition) :
    Except SelectionFault KeySelection := do
  let leaves ← condition.conjuncts
  match ← leaves.foldlM schema.addClause (none, none) with
  | (some partition, sort) => return { partition, sort }
  | (none, _) => .error (.missingPartition schema.partition.name)

end KeySchema

end ItemTable
