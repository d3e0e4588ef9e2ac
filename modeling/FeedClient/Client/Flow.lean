import FeedClient.Client.Clock
import FeedClient.Route

/-!
# Signing in and out

The flows of the application, each waiting for its own requests:

- `loadCurrentUser` fetches the signed-in user with the session's token and keeps the profile
  when the reply reads as one;
- `start` restores the session from the vault and loads its user, or stops loading when there
  is no session;
- `login` submits the login and password; a reply that reads as a session with a token signs
  in, keeps the session in the vault and loads the user;
- `logout` signs out and forgets the user;
- `runProgram` is the command line: start, then fetch one path.

Replies may wrap their payload in a `data` member (`unwrapData`). These flows listen to their
requests themselves (`Listener.capture`), so their callbacks are not recorded.
-/

namespace FeedClient

open Json Http

/-- The payload of reply data: its `data` member when it is an object that has one, else the
data itself. -/
def unwrapData (v : Value) : Value := (v.field? "data").getD v

namespace Client

/-- Sends a request that the client listens to itself, and waits for it. Returns the data of
its success, if it had one. -/
def fetchOwn (c : Client) (style : Style) (method : Method) (path token : String) (body : Body) :
    Client × Option Value :=
  let (c, due) := { c with captured := none }.issue style method path token body .capture true
  let c := c.runUntil due
  ({ c with captured := none }, c.captured)

/-- Fetches the signed-in user and keeps the profile. -/
def loadCurrentUser (c : Client) : Client × Option Profile :=
  let (c, data) := c.fetchOwn .fetch Method.get Route.userMe c.store.accessToken .empty
  match data with
  | none => (c, none)
  | some d =>
    match Profile.ofValue (unwrapData d) with
    | .ok p => (c.commit (.setCurrentUser p), some p)
    | .error _ => (c, none)

/-- Restores the session and loads its user; without a session, stops loading. -/
def start (c : Client) : Client × Option Profile :=
  let (store, restored) := c.store.restoreSession
  let c := { c with store }
  match restored with
  | none => (c.commit (.setLoading false), none)
  | some _ => c.loadCurrentUser

/-- The body of a login request. -/
def loginBody (login password : String) : Body :=
  .json (Value.obj [("login", .str login), ("password", .str password)])

/-- Signs in with a login and a password. -/
def login (c : Client) (login password : String) : Client × Option Session :=
  let (c, data) := c.fetchOwn .submit Method.post Route.authLogin "" (loginBody login password)
  match data with
  | none => (c, none)
  | some d =>
    match Session.ofValue (unwrapData d) with
    | .ok s =>
      if s.isAuthenticated then ((c.commit (.setSession s)).loadCurrentUser.1, some s)
      else (c, none)
    | .error _ => (c, none)

/-- Signs out and forgets the user. -/
def logout (c : Client) : Client :=
  (c.commit .clearSession).commit (.setCurrentUser {})

/-- What the command line does: start, then fetch `target` with the session's token, if one
is given, and wait for it. -/
def runProgram (c : Client) (target : Option String) : Client :=
  let c := c.start.1
  match target with
  | some path => (c.fetchOwn .fetch Method.get path c.store.accessToken .empty).1
  | none => c

end Client

end FeedClient
