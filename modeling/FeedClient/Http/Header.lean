/-!
# Request headers

Every request asks for JSON. The access token goes into the `authorization` header, marked
sensitive, when it is a valid header value: every byte a visible character, a space, a tab
or a byte at or above `0x80`, and no `0x7F`. Otherwise the request goes without it.
-/

namespace FeedClient
namespace Http

/-- A header as sent. -/
structure Header where
  name : String
  value : String
  sensitive : Bool
  deriving Repr, DecidableEq

/-- Whether a byte may appear in a header value. -/
def isHeaderValueByte (b : UInt8) : Bool := (b ≥ 32 && b != 127) || b == 9

/-- Whether a text is a valid header value. -/
def isHeaderValue (s : String) : Bool := s.toUTF8.toList.all isHeaderValueByte

/-- The headers of a request with the given access token, sorted by name. -/
def headers (authorization : String) : List Header :=
  let accept : Header := { name := "accept", value := "application/json", sensitive := false }
  if isHeaderValue authorization then
    [accept, { name := "authorization", value := authorization, sensitive := true }]
  else [accept]

end Http
end FeedClient
