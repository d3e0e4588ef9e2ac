import FeedClient.Http.Method
import FeedClient.Http.Body
import FeedClient.Http.Response

/-!
# Requests and replies

A request as it leaves the client: method, full URL, the authorization text and the body.
Its reply is a response or a transport failure. A scripted server answers each request with
the next entry of its script, after a delay in milliseconds; when the script is used up,
every further request fails at once.
-/

namespace FeedClient
namespace Http

/-- An outbound request. -/
structure Request where
  method : Method
  url : String
  authorization : String
  body : Body

/-- How a request ends: with a response, or with a failure of the transport. -/
inductive Reply where
  | response (r : Response)
  | failure (message : String)

/-- One entry of a server script: the reply and how long it takes. -/
structure Scripted where
  reply : Reply
  delay : Nat := 0

/-- What a server answers once its script is used up. -/
def Scripted.exhausted : Scripted := { reply := .failure "no scripted response" }

/-- The next entry of a script and the rest of it. -/
def Scripted.next : List Scripted → Scripted × List Scripted
  | [] => (Scripted.exhausted, [])
  | s :: rest => (s, rest)

/-- With nothing scripted, every request meets the exhausted answer. -/
@[simp]
theorem Scripted.next_nil : Scripted.next [] = (Scripted.exhausted, []) := rfl

/-- The next scripted answer is the first one left. -/
@[simp]
theorem Scripted.next_cons (s : Scripted) (rest : List Scripted) :
    Scripted.next (s :: rest) = (s, rest) := rfl

end Http
end FeedClient
