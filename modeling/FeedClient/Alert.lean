import FeedClient.Json.Decode
import FeedClient.Json.Tree
import FeedClient.Json.Writer
import FeedClient.Text.Blank

/-!
# Alerts

An alert is what the client shows the user: a type (such as `network-error`), a message and
the id of the request it answers, if any. It is visible when its message is not empty.

The service reports errors and confirmations as notices, whose members all default; a notice
becomes an alert, dropping a request id that is blank.

When an alert is cleared after its delay, its message and request id are always blanked; its
type too under `ClearPolicy.typeAndMessage`.
-/

namespace FeedClient

open Json

/-- An alert. -/
structure Alert where
  kind : String := ""
  message : String := ""
  requestId : Option String := none
  deriving Repr, DecidableEq, Inhabited

namespace Alert

/-- The type of the alert raised when a request cannot reach the service. -/
def networkError : String := "network-error"

/-- Whether the alert shows: its message is not empty. -/
def isVisible (a : Alert) : Bool := !a.message.isEmpty

/-- The record shape of an alert: type and message must be present. -/
def form : RecordForm Alert where
  expecting := "struct Alert"
  fields := [("type", .required), ("message", .required), ("request_id", .useDefault)]
  slot k := if k == "type" then some 0 else if k == "message" then some 1
    else if k == "request_id" then some 2 else none
  start := {}

/-- Reads field `i` of an alert from JSON text. -/
def scanField (i : Nat) (a : Alert) : Scan Alert :=
  match i with
  | 0 => do pure { a with kind := ← Scan.text }
  | 1 => do pure { a with message := ← Scan.text }
  | _ => do pure { a with requestId := ← Scan.optional Scan.text }

/-- Reads an alert from JSON text. -/
def scan : Scan Alert := Scan.record form scanField

/-- Reads an alert from a JSON document. -/
def readText (text : String) : Except Error Alert := Scan.runDocument scan text.toUTF8.toList

/-- The alert as JSON, members in declaration order; the request id is left out when there is
none. -/
def toValue (a : Alert) : Value :=
  .object ([("type", .str a.kind), ("message", .str a.message)] ++
    match a.requestId with
    | some r => [("request_id", .str r)]
    | none => [])

end Alert

/-- What to blank when an alert is cleared. -/
inductive ClearPolicy where
  /-- Blank the type and the message. -/
  | typeAndMessage
  /-- Blank the message only. -/
  | messageOnly
  deriving Repr, DecidableEq, Inhabited

namespace ClearPolicy

/-- The names of the policies, in order. -/
def names : List String := ["type_and_message", "message_only"]

/-- The policy with index `i` among `names`. -/
def ofIndex (i : Nat) : ClearPolicy := if i == 1 then .messageOnly else .typeAndMessage

/-- The name of a policy. -/
def name : ClearPolicy → String
  | .typeAndMessage => "type_and_message"
  | .messageOnly => "message_only"

end ClearPolicy

/-- The alert after its clear delay: message and request id blanked, and the type under
`typeAndMessage`. -/
def Alert.cleared (policy : ClearPolicy) (a : Alert) : Alert :=
  { kind := if policy == .typeAndMessage then "" else a.kind, message := "", requestId := none }

/-- A notice from the service: request id, type and message, all optional. -/
structure Notice where
  requestId : Option String := none
  kind : String := ""
  message : String := ""
  deriving Repr, DecidableEq, Inhabited

namespace Notice

/-- The record shape of a notice. -/
def form : RecordForm Notice where
  expecting := "struct ServerMessage"
  fields := [("request_id", .useDefault), ("type", .useDefault), ("message", .useDefault)]
  slot k := if k == "request_id" then some 0 else if k == "type" then some 1
    else if k == "message" then some 2 else none
  start := {}

/-- Reads field `i` of a notice from JSON text. -/
def scanField (i : Nat) (n : Notice) : Scan Notice :=
  match i with
  | 0 => do pure { n with requestId := ← Scan.optional Scan.text }
  | 1 => do pure { n with kind := ← Scan.text }
  | _ => do pure { n with message := ← Scan.text }

/-- Reads a notice from JSON text. -/
def scan : Scan Notice := Scan.record form scanField

/-- Reads a notice from a JSON document given as bytes. -/
def read (bytes : List UInt8) : Except Error Notice := Scan.runDocument scan bytes

/-- The alert a notice raises; a blank request id is dropped. -/
def toAlert (n : Notice) : Alert :=
  { kind := n.kind, message := n.message,
    requestId := n.requestId.filter (fun r => !Text.isBlank r) }

end Notice
end FeedClient
