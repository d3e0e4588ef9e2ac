import FeedClient.Json.Writer
import FeedClient.Text.Percent

/-!
# Request bodies

A request carries no body, a JSON value, form fields, or raw bytes with their content type.
`Body.encode` gives the content type and bytes to send: JSON compact with sorted keys, form
fields as `key=value` pairs joined by `&`, each side percent-encoded.
-/

namespace FeedClient
namespace Http

/-- The payload of a request. -/
inductive Body where
  | empty
  | json (v : Json.Value)
  | form (fields : List (String × String))
  | raw (contentType : String) (bytes : List UInt8)
  deriving Inhabited

/-- The content type of JSON bodies. -/
def jsonContentType : String := "application/json"

/-- The content type of form bodies. -/
def formContentType : String := "application/x-www-form-urlencoded"

/-- Form fields as text: `key=value` pairs joined by `&`, both sides percent-encoded. -/
def formText (fields : List (String × String)) : String :=
  "&".intercalate (fields.map fun (k, v) => Percent.encode k ++ "=" ++ Percent.encode v)

/-- The content type and bytes to send, or `none` for no body. -/
def Body.encode : Body → Option (String × List UInt8)
  | .empty => none
  | .json v => some (jsonContentType, v.compact.toUTF8.toList)
  | .form fields => some (formContentType, (formText fields).toUTF8.toList)
  | .raw contentType bytes => some (contentType, bytes)

/-- An empty body sends nothing. -/
@[simp]
theorem Body.encode_empty : Body.empty.encode = none := rfl

end Http
end FeedClient
