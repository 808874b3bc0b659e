import ItemTable.KeyCondition.Language
import ItemTable.Number.Natural
import ItemTable.Operation
import ItemTable.Projection
import ItemTable.ServiceError

/-!
# Errors of chains

A chain fails before anything is sent if it cannot become the request that is
asked for, and otherwise with the error of the service.
-/

namespace ItemTable

/-- A part of a chain that only some operations take. -/
inductive Constraint where
  | keyCondition
  | filter
  | writeCondition
deriving DecidableEq

/-- The part in the words of error messages. -/
def Constraint.words : Constraint → String
  | keyCondition => "key condition"
  | filter => "filter"
  | writeCondition => "write condition"

/-- Why a chain or a document is no request of an operation. -/
inductive RequestFault where
  /-- The operation has no place for the part. -/
  | notAccepted (operation : Operation) (part : Constraint)
  /-- A page of no items is asked for. -/
  | zeroLimit
  /-- The limit is no integer of 32 bits. -/
  | limitTooLarge (limit : Nat)
deriving DecidableEq

/-- The largest limit of a request. -/
def RequestFault.largestLimit : Nat :=
  largestInt32

/-- The explanation of the fault. -/
def RequestFault.message : RequestFault → String
  | notAccepted operation part =>
      operation.name ++ " does not accept a " ++ part.words
  | zeroLimit => "limit must be greater than 0"
  | limitTooLarge limit =>
      "limit " ++ toString limit ++ " exceeds " ++ toString largestLimit

/-- Why a chain fails. -/
inductive ChainError where
  /-- A projection list has the wrong shape. -/
  | typeMismatch (fault : ProjectionFault)
  | invalidKeyCondition (fault : KeyConditionFault)
  | invalidRequest (fault : RequestFault)
  /-- The condition of a write does not hold. -/
  | checkFailed (error : ServiceError)
  /-- There is no item with the key. -/
  | notFound (tableName : String)
  /-- Any other error of the service. -/
  | backend (error : ServiceError)
deriving DecidableEq

namespace ChainError

/-- The error for an error of the service. -/
def ofService (error : ServiceError) : ChainError :=
  if error.isCheckFailed then checkFailed error else backend error

/-- The error of the service behind the error. -/
def service? : ChainError → Option ServiceError
  | checkFailed error | backend error => some error
  | _ => none

/-- Whether there is no item with the key. -/
def isNotFound : ChainError → Bool
  | notFound _ => true
  | _ => false

/-- Whether the condition of a write does not hold. -/
def isCheckFailed : ChainError → Bool
  | checkFailed _ => true
  | _ => false

/-- The explanation of the error, unless it is one without a text. -/
def message? : ChainError → Option String
  | typeMismatch fault => some ("type mismatch: " ++ fault.message)
  | invalidKeyCondition fault => some ("invalid key condition: " ++ fault.message)
  | invalidRequest fault => some ("invalid request: " ++ fault.message)
  | checkFailed error => error.message.map ("conditional check failed: " ++ ·)
  | notFound tableName => some ("item not found in table " ++ tableName)
  | backend error => error.message.map fun _ => "backend error: " ++ error.display

end ChainError

end ItemTable
