import FeedClient.Json.Decode
import FeedClient.Json.Tree
import FeedClient.Json.Writer

/-!
# Session events

The client announces that its session was invalidated, and why: the service refused a
request (`forbidden`), or a successful answer said the user is not logged in
(`not_logged_in`). Every such event sends the user to the root path.

As JSON an event is an object tagged by its `event` member, `session_invalidated`, with the
reason beside it.
-/

namespace FeedClient

open Json

/-- Why a session was invalidated. -/
inductive Invalidation where
  | forbidden
  | notLoggedIn
  deriving Repr, DecidableEq, Inhabited

/-- The names of the reasons, in order. -/
def Invalidation.names : List String := ["forbidden", "not_logged_in"]

/-- The name of a reason. -/
def Invalidation.name : Invalidation → String
  | .forbidden => "forbidden"
  | .notLoggedIn => "not_logged_in"

/-- An event of the client. -/
inductive SessionEvent where
  | invalidated (reason : Invalidation)
  deriving Repr, DecidableEq, Inhabited

namespace SessionEvent

/-- Where the user goes after the event. -/
def redirectPath : SessionEvent → String
  | .invalidated _ => "/"

/-- The record shape of the invalidation variant. -/
def invalidatedForm : RecordForm Invalidation where
  expecting := "struct variant ClientEvent::SessionInvalidated"
  fields := [("reason", .required)]
  slot k := if k == "reason" then some 0 else none
  start := .forbidden

/-- Reads the invalidation variant from buffered content. -/
def ofContent (content : Value) : Except Fault SessionEvent := do
  let reason ← Tree.record .content invalidatedForm (fun _ v _ => do
    let i ← Tree.unitVariant .content Invalidation.names v
    pure (if i == 1 then .notLoggedIn else .forbidden)) content
  pure (.invalidated reason)

/-- Reads an event from a JSON document. The event is read from its buffered value before
the end of the document is checked; faults in the members beside the tag carry no
position. -/
def readText (text : String) : Except Error SessionEvent :=
  Scan.runDocument (do
    let (_, content) ← Scan.tagged "event" "internally tagged enum ClientEvent"
      ["session_invalidated"]
    match ofContent content with
    | .ok e => pure e
    | .error f => throw f.unplaced) text.toUTF8.toList

/-- The event as JSON. -/
def toValue : SessionEvent → Value
  | .invalidated r => Value.obj [("event", .str "session_invalidated"), ("reason", .str r.name)]

end SessionEvent
end FeedClient
