import ItemTable.Config
import ItemTable.Remote.Answer
import ItemTable.Remote.Call
import ItemTable.Service.Basic

/-!
# Remote services

A remote service is reached through a connection, which carries calls there and
answers back.  A canned connection has its answers prepared and notes the calls.
-/

namespace ItemTable

/-- A connection whose state is of type `σ`. -/
structure Connection (σ : Type) where
  /-- The answer to a call; none if the connection fails. -/
  exchange : RemoteCall → σ → Option RemoteAnswer × σ
  /-- The most pages that a read from the state has. -/
  pageBound : σ → Nat

namespace Connection

variable {σ α : Type}

/-- Send a call and read the reply.  A call without an address fails at once. -/
def send
    (connection : Connection σ)
    (read : RemoteAnswer → Except RemoteAnswer.Fault α)
    (call : RemoteCall)
    (state : σ) :
    Except ServiceError α × σ :=
  if call.isAddressed then
    match connection.exchange call state with
    | (none, state) => (.error .unanswered, state)
    | (some answer, state) => (answer.reply call.operation read, state)
  else
    (.error .unanswered, state)

/-- The service at the other end of a connection. -/
def service (connection : Connection σ) : TableService σ where
  get request := connection.send RemoteAnswer.readGetReply (.ofGet request)
  put request := connection.send RemoteAnswer.readWriteReply (.ofPut request)
  delete request := connection.send RemoteAnswer.readWriteReply (.ofDelete request)
  query request := connection.send RemoteAnswer.readPageReply (.ofQuery request)
  scan request := connection.send RemoteAnswer.readPageReply (.ofScan request)
  pageBound := connection.pageBound

end Connection

/-- Where a remote service is. -/
structure RemoteAddress where
  region : String
  endpoint : Option String
deriving DecidableEq

/-- The address that a configuration gives. -/
def RemoteAddress.ofConfig (config : Config) : RemoteAddress where
  region := config.region
  endpoint := config.endpoint

/-! ## Canned connections -/

/-- Prepared answers, and the calls so far. -/
structure CannedAnswers where
  answers : List (Option RemoteAnswer)
  calls : List RemoteCall

namespace CannedAnswers

/-- The prepared answers before any call. -/
def start (answers : List (Option RemoteAnswer)) : CannedAnswers where
  answers := answers
  calls := []

/-- The answer when none is prepared. -/
def blank : RemoteAnswer where
  status := 200
  body := "\x7b\x7d"

/-- Take the next answer. -/
def exchange (call : RemoteCall) (canned : CannedAnswers) :
    Option RemoteAnswer × CannedAnswers :=
  let calls := canned.calls ++ [call]
  match canned.answers with
  | [] => (some blank, { canned with calls })
  | answer :: answers => (answer, { answers, calls })

/-- The connection that gives the prepared answers.  Every page takes one, and
the first page without one is the last. -/
def connection : Connection CannedAnswers where
  exchange := exchange
  pageBound canned := canned.answers.length + 1

end CannedAnswers

end ItemTable
