import FeedClient.Client.Flow

/-!
# Driving a client step by step

A `Step` is one thing a caller does with a client: change the store, read it, use the vault,
send a request (and wait for it or not), move the clock, or run a flow of the application.
After each step whatever is due at that moment completes, without moving the clock, and the
step is reported: its answer, the time, the store, and what the log gathered.

Session events reach the caller through a bus that holds `busCapacity` events. A caller who
looks after each step receives them all, unless more than that were published in one step:
then it first learns how many it missed, and receives the newest (`receive`).

Main statements:

- `receive_length_le`: a caller never receives more than the bus holds, plus the word of
  events missed.
- `run_length`: there is one report for each step.
-/

namespace FeedClient

open Json Http

/-- One thing a caller does with a client. -/
inductive Step where
  | setSession (token : String)
  /-- Takes a session without writing it to the vault. -/
  | restoreCommit (token : String)
  | clearSession
  | setCurrentUser (p : Profile)
  | setLoading (flag : Bool)
  | setAlert (a : Alert)
  | restoreSession
  | snapshot
  | read
  | advance (ms : Nat)
  | storageSet (key value : String)
  | storageRemove (key : String)
  /-- Fetches a path, with the given token or the session's. -/
  | get (path : String) (token : Option String) (useLoader wait : Bool)
  /-- Submits a body to a path, with the callbacks asked for. -/
  | send (path : String) (method : Method) (token : Option String) (body : Body)
      (useLoader wait success error final : Bool)
  /-- Waits for every request in flight. -/
  | join
  | start
  | login (login password : String)
  | logout
  | loadCurrentUser

/-- What a step answers. -/
inductive Answer where
  | nothing
  | session (s : Option Session)
  | profile (p : Option Profile)
  /-- The store as read field by field: token, loading flag, alert and user. -/
  | reading (token : String) (loading : Bool) (alert : Alert) (user : Profile)
  | stored (r : Except StorageError Unit)

/-- What a caller receives from the event bus. -/
inductive Received where
  /-- Word that this many events were missed. -/
  | lagged (missed : Nat)
  | event (e : SessionEvent)

/-- How many events the bus holds for a caller who has not looked. -/
def busCapacity : Nat := 16

/-- What a caller receives of the events published since it last looked. -/
def receive (events : List SessionEvent) : List Received :=
  if busCapacity < events.length then
    .lagged (events.length - busCapacity) ::
      (events.drop (events.length - busCapacity)).map .event
  else events.map .event

/-- The report of one step. -/
structure Report where
  answer : Answer
  time : Nat
  store : Store
  received : List Received
  calls : List Call
  requests : List Request

namespace Client

/-- A client built by hand from settings: their store options and base URL, and the network
message every client starts with. -/
def manual (settings : Settings) (vault : Vault) (script : List Scripted) (subscribed : Bool) :
    Client :=
  create (Store.create vault settings.storeOptions) settings.apiBaseUrl defaultNetworkErrorMessage
    script subscribed

/-- Changes the vault of the store. -/
def useVault (c : Client) (f : Vault → Vault × Except StorageError Unit) : Client × Answer :=
  let (vault, r) := f c.store.vault
  ({ c with store := { c.store with vault } }, .stored r)

/-- Carries out step number `idx`. -/
def perform (c : Client) (idx : Nat) : Step → Client × Answer
  | .setSession token => (c.commit (.setSession ⟨token⟩), .nothing)
  | .restoreCommit token => (c.commit (.restoreSession ⟨token⟩), .nothing)
  | .clearSession => (c.commit .clearSession, .nothing)
  | .setCurrentUser p => (c.commit (.setCurrentUser p), .nothing)
  | .setLoading flag => (c.commit (.setLoading flag), .nothing)
  | .setAlert a => (c.commit (.setAlert a), .nothing)
  | .restoreSession =>
    let (store, s) := c.store.restoreSession
    ({ c with store }, .session s)
  | .snapshot => (c, .nothing)
  | .read =>
    (c, .reading c.store.accessToken c.store.state.isLoading c.store.state.alert
      c.store.state.currentUser)
  | .advance ms => (c.advance ms, .nothing)
  | .storageSet key value => c.useVault (·.set key value)
  | .storageRemove key => c.useVault (·.remove key)
  | .get path token useLoader wait =>
    let (c', due) := c.issue .fetch Method.get path (token.getD c.store.accessToken) .empty
      (.record idx true false false) useLoader
    (if wait then c'.runUntil due else c', .nothing)
  | .send path method token body useLoader wait success error final =>
    let (c', due) := c.issue .submit method path (token.getD c.store.accessToken) body
      (.record idx success error final) useLoader
    (if wait then c'.runUntil due else c', .nothing)
  | .join => (c.join, .nothing)
  | .start => let (c', p) := c.start; (c', .profile p)
  | .login name password => let (c', s) := c.login name password; (c', .session s)
  | .logout => (c.logout, .nothing)
  | .loadCurrentUser => let (c', p) := c.loadCurrentUser; (c', .profile p)

/-- Carries out step number `idx`, completes what is then due, and reports. -/
def step (c : Client) (idx : Nat) (s : Step) : Client × Report :=
  let (c, answer) := c.perform idx s
  let (c, log) := c.settle.takeLog
  (c, { answer, time := c.now, store := c.store, received := receive log.events,
        calls := log.calls, requests := log.requests })

/-- Carries out steps numbered from `idx` on, one report each. -/
def runFrom (c : Client) (idx : Nat) : List Step → List Report
  | [] => []
  | s :: rest =>
    let (c', r) := c.step idx s
    r :: c'.runFrom (idx + 1) rest

/-- Carries out steps numbered from zero. -/
def run (c : Client) (steps : List Step) : List Report := c.runFrom 0 steps

/-- A run gives one answer per step. -/
theorem runFrom_length (c : Client) (idx : Nat) (steps : List Step) :
    (c.runFrom idx steps).length = steps.length := by
  induction steps generalizing c idx with
  | nil => rfl
  | cons s rest ih => simp [runFrom, ih]

/-- A run from the start gives one answer per step. -/
theorem run_length (c : Client) (steps : List Step) : (c.run steps).length = steps.length :=
  runFrom_length c 0 steps

end Client

/-- A caller receives at most what the bus holds, and one notice of what it missed. -/
theorem receive_length_le (events : List SessionEvent) :
    (receive events).length ≤ busCapacity + 1 := by
  unfold receive
  split
  · simp
    omega
  · simp
    omega

end FeedClient
