import ItemTable.Text.Split

/-!
# Errors of a table service

A service answers a call with an error that carries one of the known codes, a
text and an HTTP status.  A code that is not known, and a call that never got an
answer, have the code `unknown`.
-/

namespace ItemTable

/-- The known codes of errors. -/
inductive ErrorCode where
  | resourceNotFound
  | resourceInUse
  | conditionalCheckFailed
  | itemCollectionSizeLimitExceeded
  | throughputExceeded
  | requestLimitExceeded
  | throttling
  | validation
  | serialization
  | internal
  | accessDenied
  /-- Any other code, or none at all. -/
  | unknown
deriving DecidableEq

namespace ErrorCode

/-- The written form of a code. -/
def name : ErrorCode → String
  | resourceNotFound => "ResourceNotFoundException"
  | resourceInUse => "ResourceInUseException"
  | conditionalCheckFailed => "ConditionalCheckFailedException"
  | itemCollectionSizeLimitExceeded => "ItemCollectionSizeLimitExceededException"
  | throughputExceeded => "ProvisionedThroughputExceededException"
  | requestLimitExceeded => "RequestLimitExceeded"
  | throttling => "ThrottlingException"
  | validation => "ValidationException"
  | serialization => "SerializationException"
  | internal => "InternalServerError"
  | accessDenied => "AccessDeniedException"
  | unknown => "Unknown"

/-- All codes. -/
def all : List ErrorCode :=
  [resourceNotFound, resourceInUse, conditionalCheckFailed,
    itemCollectionSizeLimitExceeded, throughputExceeded, requestLimitExceeded,
    throttling, validation, serialization, internal, accessDenied, unknown]

/-- The code with a written form.  What stands before the last `#` names the
service and does not count. -/
def ofName (text : String) : ErrorCode :=
  let short := String.ofList ((Text.split '#' text.toList).getLastD [])
  (all.find? fun code => code.name == short).getD unknown

/-- The status of an answer with the code, unless the answer has its own. -/
def status : ErrorCode → Nat
  | internal | unknown => 500
  | _ => 400

/-- Whether the code says that there were too many calls. -/
def isThrottling : ErrorCode → Bool
  | throughputExceeded | requestLimitExceeded | throttling => true
  | _ => false

end ErrorCode

/-- An error that a service answers with. -/
structure ServiceError where
  code : ErrorCode
  /-- The text of the error; a failed connection leaves none. -/
  message : Option String
  status : Nat
  /-- The text of the error behind this one. -/
  source : Option String
deriving DecidableEq

namespace ServiceError

/-- An error with a text. -/
def ofCode (code : ErrorCode) (message : String) : ServiceError where
  code := code
  message := some message
  status := code.status
  source := none

/-- An error that is described by its code alone. -/
def ofCodeAlone (code : ErrorCode) : ServiceError :=
  ofCode code code.name

/-- A table does not exist. -/
def notFound (message : String) : ServiceError :=
  ofCode .resourceNotFound message

/-- A table or an index exists already. -/
def inUse (message : String) : ServiceError :=
  ofCode .resourceInUse message

/-- The condition of a write does not hold. -/
def checkFailed (message : String) : ServiceError :=
  ofCode .conditionalCheckFailed message

/-- A request is wrong in itself. -/
def validation (message : String) : ServiceError :=
  ofCode .validation message

/-- The service is broken. -/
def internal (message : String) : ServiceError :=
  ofCode .internal message

/-- The service was not reached. -/
def transport (message : String) : ServiceError :=
  ofCode .unknown message

/-- A failure without an answer that could be read. -/
def unanswered : ServiceError where
  code := .unknown
  message := none
  status := ErrorCode.unknown.status
  source := none

/-- The error with another status. -/
def withStatus (error : ServiceError) (status : Nat) : ServiceError :=
  { error with status }

/-- The error with the text of another error behind it. -/
def withSource (error : ServiceError) (source : String) : ServiceError :=
  { error with source := some source }

/-- Whether the condition of a write did not hold. -/
def isCheckFailed (error : ServiceError) : Bool :=
  error.code == .conditionalCheckFailed

/-- The error in one line. -/
def display (error : ServiceError) : String :=
  "DynamoDBError(" ++ error.code.name ++ "): " ++ error.message.getD ""

end ServiceError

end ItemTable
