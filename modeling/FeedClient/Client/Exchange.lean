import FeedClient.Client.Basic
import FeedClient.Alert

/-!
# Sending requests and reading their replies

`Client.issue` sends a request: it turns the loading flag on when the request drives it,
takes the server's next scripted reply, logs the request and schedules its completion when
the reply's delay ends (a timer, so at most `longestWait`).
`Client.complete` reads the reply when it arrives, by the request's `Style`.

A fetch:

- a failed transport shows the network alert;
- `403` signs out and publishes `forbidden`;
- `404` only turns the loading flag off;
- any other failure status is ignored;
- a success hands its body, read as JSON, to the success callback, and then turns the loading
  flag off. A body that is not JSON skips the callback.

A submission:

- a failed transport is ignored;
- a failure status shows the service's notice as an alert, when the body is one, and runs the
  error callback with the response;
- a success reads the body as JSON, an empty body as `null`, and runs the success callback,
  unless its `code` member is the text `not_logged_in`: then it publishes `notLoggedIn`
  instead. A body that is not JSON skips the callback.

Whatever the reply to a submission, its final callback runs next, and then the loading flag
goes off when the request drives it.
-/

namespace FeedClient

open Json Http

/-- The `code` a reply carries when the session is no longer valid. -/
def notLoggedInCode : String := "not_logged_in"

/-- Whether reply data says that the session is no longer valid. -/
def saysNotLoggedIn (data : Value) : Bool :=
  match data.field? "code" with
  | some (.string s) => s == notLoggedInCode
  | _ => false

namespace Client

/-- Reads the reply to a fetch. -/
def fetched (c : Client) (t : InFlight) : Client :=
  match t.reply with
  | .failure _ => c.commit (.setAlert { kind := Alert.networkError, message := c.networkMessage })
  | .response r =>
    if r.status == 403 then (c.commit .clearSession).publish (.invalidated .forbidden)
    else if r.status == 404 then c.loaderOff t.useLoader
    else if !r.isSuccess then c
    else
      let c := match r.json with
        | .ok data => c.onSuccess data t.listener
        | .error _ => c
      c.loaderOff t.useLoader

/-- The data of a successful reply to a submission: its body as JSON, `null` when empty. -/
def submittedData (r : Response) : Except Json.Error Value :=
  if r.body.isEmpty then .ok .null else r.json

/-- Reads the reply to a submission, before its final callback. -/
def answered (c : Client) (t : InFlight) : Client :=
  match t.reply with
  | .failure _ => c
  | .response r =>
    if !r.isSuccess then
      let c := match Notice.read r.body with
        | .ok n => c.commit (.setAlert n.toAlert)
        | .error _ => c
      c.onError r t.listener
    else
      match submittedData r with
      | .error _ => c
      | .ok data =>
        if saysNotLoggedIn data then c.publish (.invalidated .notLoggedIn)
        else c.onSuccess data t.listener

/-- Reads the reply to a submission. -/
def submitted (c : Client) (t : InFlight) : Client :=
  ((c.answered t).onFinally t.listener).loaderOff t.useLoader

/-- Completes a request when its reply arrives: the clock moves to its due time, an alert
clear due by then fires first, and the reply is read. -/
def complete (c : Client) (t : InFlight) : Client :=
  let c := { c with store := c.store.clearDue t.due, now := t.due }
  match t.style with
  | .fetch => c.fetched t
  | .submit => c.submitted t

/-- Sends a request now. Returns the client and the time its reply arrives. -/
def issue (c : Client) (style : Style) (method : Method) (path token : String) (body : Body)
    (listener : Listener) (useLoader : Bool) : Client × Nat :=
  let c := if useLoader then c.commit (.setLoading true) else c
  let (s, script) := Scripted.next c.script
  let t : InFlight := { due := wakeAt c.now s.delay, style, reply := s.reply, listener, useLoader }
  let request : Request := { method, url := c.url path, authorization := token, body }
  ({ c with script, pending := t.schedule c.pending,
            log := { c.log with requests := c.log.requests ++ [request] } }, t.due)

/-- A request issued is due when the delay of its scripted answer ends. -/
theorem issue_due (c : Client) (style : Style) (method : Method) (path token : String)
    (body : Body) (listener : Listener) (useLoader : Bool) :
    (c.issue style method path token body listener useLoader).2 =
      wakeAt c.now (Scripted.next c.script).1.delay := by
  unfold issue
  cases useLoader <;> rfl

end Client

end FeedClient
