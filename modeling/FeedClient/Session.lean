import FeedClient.Json.Decode
import FeedClient.Json.Tree
import FeedClient.Json.Writer
import FeedClient.Text.Blank

/-!
# Sessions

A session is the access token the service issued at sign-in. It counts as signed in when the
token is not blank (Unicode white space aside). As JSON it is the object
`{"access_token": token}`, which must have that member.
-/

namespace FeedClient

open Json

/-- An access token. -/
structure Session where
  accessToken : String
  deriving Repr, DecidableEq, Inhabited

namespace Session

/-- Whether the token is not blank. -/
def isAuthenticated (s : Session) : Bool := !Text.isBlank s.accessToken

/-- The record shape of a session. -/
def form : RecordForm Session where
  expecting := "struct Session"
  fields := [("access_token", .required)]
  slot k := if k == "access_token" then some 0 else none
  start := ⟨""⟩

/-- Reads a session from JSON text. -/
def scan : Scan Session :=
  Scan.record form fun _ s => do pure { s with accessToken := ← Scan.text }

/-- Reads a session from a JSON document. -/
def readText (text : String) : Except Error Session :=
  Scan.runDocument scan text.toUTF8.toList

/-- Reads a session from a JSON value. -/
def ofValue : Value → Except Fault Session :=
  Tree.record .document form fun _ v s => do pure { s with accessToken := ← Tree.text "a string" v }

/-- The session as JSON. -/
def toValue (s : Session) : Value := Value.obj [("access_token", .str s.accessToken)]

/-- The blank session is signed out. -/
@[simp]
theorem isAuthenticated_empty : (⟨""⟩ : Session).isAuthenticated = false := rfl

end Session
end FeedClient
