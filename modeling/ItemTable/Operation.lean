/-!
# Operations

The five calls that a table service answers.
-/

namespace ItemTable

/-- A call of a table service. -/
inductive Operation where
  | getItem
  | putItem
  | deleteItem
  | query
  | scan
deriving DecidableEq

namespace Operation

/-- The written form of an operation. -/
def name : Operation → String
  | getItem => "GetItem"
  | putItem => "PutItem"
  | deleteItem => "DeleteItem"
  | query => "Query"
  | scan => "Scan"

/-- The operation with a written form. -/
def ofName? : String → Option Operation
  | "GetItem" => some getItem
  | "PutItem" => some putItem
  | "DeleteItem" => some deleteItem
  | "Query" => some query
  | "Scan" => some scan
  | _ => none

/-- Whether the operation reads pages of items. -/
def isRead : Operation → Bool
  | query | scan => true
  | _ => false

/-- Whether the operation changes a table. -/
def isWrite : Operation → Bool
  | putItem | deleteItem => true
  | _ => false

end Operation

end ItemTable
