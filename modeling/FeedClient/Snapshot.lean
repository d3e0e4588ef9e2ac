import FeedClient.Session
import FeedClient.Profile
import FeedClient.Alert

/-!
# Store snapshots

What the client store holds at one moment: the session, the signed-in user's profile, whether
a request is loading, and the alert. As JSON its members are `session`, `currentUser`,
`isLoading` and `alert`, all required, written in that order.
-/

namespace FeedClient

open Json

/-- The state of the client store. -/
structure Snapshot where
  session : Session := ⟨""⟩
  currentUser : Profile := {}
  isLoading : Bool := true
  alert : Alert := {}
  deriving Repr, DecidableEq, Inhabited

namespace Snapshot

/-- The record shape of a snapshot. -/
def form : RecordForm Snapshot where
  expecting := "struct StoreSnapshot"
  fields := [("session", .required), ("currentUser", .required), ("isLoading", .required),
    ("alert", .required)]
  slot k := if k == "session" then some 0 else if k == "currentUser" then some 1
    else if k == "isLoading" then some 2 else if k == "alert" then some 3 else none
  start := {}

/-- Reads field `i` of a snapshot from JSON text. -/
def scanField (i : Nat) (s : Snapshot) : Scan Snapshot :=
  match i with
  | 0 => do pure { s with session := ← Session.scan }
  | 1 => do pure { s with currentUser := ← Profile.scan }
  | 2 => do pure { s with isLoading := ← Scan.flag }
  | _ => do pure { s with alert := ← Alert.scan }

/-- Reads a snapshot from a JSON document. -/
def readText (text : String) : Except Error Snapshot :=
  Scan.runDocument (Scan.record form scanField) text.toUTF8.toList

/-- The snapshot as JSON, members in declaration order. -/
def toValue (s : Snapshot) : Value :=
  .object [("session", s.session.toValue), ("currentUser", s.currentUser.toValue),
    ("isLoading", .bool s.isLoading), ("alert", s.alert.toValue)]

end Snapshot
end FeedClient
