import FeedClient.Json.Reader

/-!
# Responses

A response as received: status code, reason text and body bytes. It succeeds when the
status is in `200..300`, and its body is read as a JSON document on request.
-/

namespace FeedClient
namespace Http

/-- A response before any interpretation. -/
structure Response where
  status : UInt16
  statusText : String := ""
  body : List UInt8

/-- Whether the status is a success, `200` to `299`. -/
def Response.isSuccess (r : Response) : Bool := 200 ≤ r.status && r.status < 300

/-- The body as a JSON document. -/
def Response.json (r : Response) : Except Json.Error Json.Value := Json.Value.read r.body

end Http
end FeedClient
