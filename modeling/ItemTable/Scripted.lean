import ItemTable.Service.Basic

/-!
# Scripted services

A scripted service answers with the replies that it was given, one after the
other, and notes the requests that it was sent.  When there are no replies left
it answers with empty ones.
-/

namespace ItemTable

open Json

/-- A reply of a script. -/
inductive ScriptedReply where
  /-- The wire form of a reply to the request that is sent. -/
  | output (document : Json)
  | failure (error : ServiceError)

/-- A scripted service. -/
structure Scripted where
  replies : List ScriptedReply
  sent : List Request

namespace Scripted

/-- A service with the given replies that was sent nothing. -/
def start (replies : List ScriptedReply) : Scripted where
  replies := replies
  sent := []

/-- What a reply of a script says. -/
def reading
    {α : Type}
    (record : Record α) :
    ScriptedReply → Except ServiceError α
  | .failure error => .error error
  | .output document =>
      match record.decode.ofJson document with
      | .ok reply => .ok reply
      | .error _ => .error (.ofCode .serialization "bad script")

/-- Answer a request with the next reply. -/
def answer
    {α : Type}
    [Inhabited α]
    (record : Record α)
    (request : Request)
    (script : Scripted) :
    Except ServiceError α × Scripted :=
  let sent := script.sent ++ [request]
  match script.replies with
  | [] => (.ok default, { script with sent })
  | reply :: replies => (reading record reply, { replies, sent })

/-- The service that follows a script.  Every page takes a reply, and the first
one without a reply is empty. -/
def service : TableService Scripted where
  get request := answer GetReply.record (.get request)
  put request := answer WriteReply.record (.put request)
  delete request := answer WriteReply.record (.delete request)
  query request := answer PageReply.record (.query request)
  scan request := answer PageReply.record (.scan request)
  pageBound script := script.replies.length + 1

end Scripted

end ItemTable
