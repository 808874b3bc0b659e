import ItemTable.Operation
import ItemTable.Remote.Value
import ItemTable.ServiceError

/-!
# Failures of a remote service

An answer that is no success names its error in the body.  Code and text of the
error are the texts under a few names, and the rest of the body is passed over,
unless the operation declares the error: then the members that belong to it have
to be right, too.
-/

namespace ItemTable

open Json

/-- What the body of a failure says. -/
structure RemoteFailure where
  code : String
  message : Option String
deriving DecidableEq

namespace RemoteFailure

/-- The code in the name of an error: what stands before the first colon and
behind the first `#`. -/
def bareCode (name : String) : String :=
  let start := name.toList.takeWhile (· != ':')
  match start.dropWhile (· != '#') with
  | _ :: code => String.ofList code
  | [] => String.ofList start

/-- The last text under one of the names, if there is one.  Names count as they
are written, and every such text has to mean something. -/
def lastText (members : List (String × Raw)) (names : List String) : Option (Option String) := do
  let texts ← (members.filterMap fun (name, value) =>
    match value with
    | .string written => if names.contains name then some written else none
    | _ => none).mapM Raw.unescape?
  return texts.getLast?

/-- Read the code and the text of an error. -/
def ofRaw? : Raw → Option RemoteFailure
  | .object members => do
      guard (members.all fun (_, value) => value.isPassable)
      let code ← lastText members ["code"]
      let type ← lastText members ["__type"]
      let message ← lastText members ["message", "Message", "errorMessage"]
      let name ← code.or type
      return { code := bareCode name, message }
  | _ => none

/-! ## Declared errors -/

/-- An error with a text. -/
def textShape : Raw.Shape Unit :=
  Raw.Shape.pure () |>.checking "message" Raw.text?

/-- Why a call was throttled. -/
def reasonShape : Raw.Shape Unit :=
  Raw.Shape.pure ()
    |>.checking "reason" Raw.text?
    |>.checking "resource" Raw.text?

/-- An error with a text and, under a name, the reasons why calls are
throttled. -/
def throttlingShape (name : String) : Raw.Shape Unit :=
  textShape.checking name (Raw.listOf? reasonShape.read?)

/-- The members of an error that the operation declares.  Every operation
declares some errors, and those that write declare more. -/
def declared? (operation : Operation) (code : String) : Option (Raw.Shape Unit) :=
  match code, operation.isWrite with
  | "InternalServerError", _
  | "ResourceNotFoundException", _
  | "ItemCollectionSizeLimitExceededException", true
  | "ReplicatedWriteConflictException", true
  | "TransactionConflictException", true => some textShape
  | "InvalidEndpointException", _ => some (Raw.Shape.pure () |>.checking "Message" Raw.text?)
  | "ThrottlingException", _ => some (throttlingShape "throttlingReasons")
  | "ProvisionedThroughputExceededException", _
  | "RequestLimitExceeded", _ => some (throttlingShape "ThrottlingReasons")
  | "ConditionalCheckFailedException", true =>
      some (textShape.checking "Item" (RemoteValue.ofFields? RemoteValue.maxLevels))
  | _, _ => none

/-! ## Errors -/

/-- Read the body of a failure of an operation. -/
def read (operation : Operation) (body : String) : Option RemoteFailure := do
  let document ← Raw.parse? body
  let failure ← ofRaw? document
  match declared? operation failure.code with
  | some shape => (shape.read? document).map fun _ => failure
  | none => some failure

/-- The error that a failure means.  A failure without a text is described by
its code. -/
def error (failure : RemoteFailure) : ServiceError :=
  ServiceError.ofCode (.ofName failure.code) (failure.message.getD failure.code)

end RemoteFailure

end ItemTable
