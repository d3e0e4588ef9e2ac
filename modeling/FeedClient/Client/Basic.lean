import FeedClient.Store
import FeedClient.Event
import FeedClient.Http.Request

/-!
# The client

A client joins a store, a server to talk to, and a clock in milliseconds. Each request it
issues becomes an `InFlight` that completes when its reply arrives; the tasks wait in `pending`,
ordered by due time and, at one time, by issue. What the client shows the outside (session
events, the callbacks that ran, the requests sent) gathers in a `Log` until it is taken.

Session events go to one listener, when there is one (`subscribed`); otherwise they are
dropped. Callbacks are described by a `Listener`: a caller that records each callback it
gave, or the client itself, which keeps the data of a success (`captured`) to read it back.

Main statements:

- `schedule_sorted`: scheduling keeps the pending tasks ordered by due time.
-/

namespace FeedClient

open Json Http

/-- Who hears how a request ended. -/
inductive Listener where
  /-- A caller that records each callback it gave, under the request's number. -/
  | record (req : Nat) (success error final : Bool)
  /-- The client itself, which keeps the data of a success. -/
  | capture

/-- A callback as it ran. -/
inductive Call where
  | success (req : Nat) (data : Value)
  | error (req : Nat) (response : Response)
  | final (req : Nat)

/-- How the reply to a request is read: as a fetch of data, or as the answer to a
submission. -/
inductive Style where
  | fetch
  | submit
  deriving DecidableEq

/-- A request in flight. -/
structure InFlight where
  /-- When its reply arrives. -/
  due : Nat
  style : Style
  reply : Reply
  listener : Listener
  /-- Whether the request drives the store's loading flag. -/
  useLoader : Bool

/-- Puts a task after every task due no later than it. -/
def InFlight.schedule (t : InFlight) : List InFlight → List InFlight
  | [] => [t]
  | u :: rest => if u.due ≤ t.due then u :: t.schedule rest else t :: u :: rest

/-- What the client has shown since it was last asked. -/
structure Log where
  events : List SessionEvent := []
  calls : List Call := []
  requests : List Request := []

/-- A client: its store, where it sends requests, what it says when the network fails, the
server's script, the clock, the requests in flight and the log. -/
structure Client where
  store : Store
  /-- The base of every URL, without a trailing slash. -/
  baseUrl : String
  networkMessage : String
  script : List Scripted
  subscribed : Bool
  now : Nat := 0
  pending : List InFlight := []
  log : Log := {}
  captured : Option Value := none

/-- A base URL without its trailing slashes. -/
def trimBase (url : String) : String :=
  String.ofList (url.toList.reverse.dropWhile (· == '/')).reverse

namespace Client

/-- A client at time zero with nothing in flight. -/
def create (store : Store) (baseUrl networkMessage : String) (script : List Scripted)
    (subscribed : Bool) : Client :=
  { store, baseUrl := trimBase baseUrl, networkMessage, script, subscribed }

/-- A client put together from settings: their store options, base URL and network
message. -/
def assemble (settings : Settings) (vault : Vault) (script : List Scripted) (subscribed : Bool) :
    Client :=
  create (Store.create vault settings.storeOptions) settings.apiBaseUrl
    settings.networkErrorMessage script subscribed

/-- The URL of a path: the base, then the path, with one slash between them. -/
def url (c : Client) (path : String) : String :=
  if path.startsWith "/" then c.baseUrl ++ path else c.baseUrl ++ "/" ++ path

/-- Applies a mutation to the store at the current time. -/
def commit (c : Client) (m : Mutation) : Client := { c with store := c.store.commit c.now m }

/-- Publishes a session event to the listener, if there is one. -/
def publish (c : Client) (e : SessionEvent) : Client :=
  if c.subscribed then { c with log := { c.log with events := c.log.events ++ [e] } } else c

/-- Records a callback that ran. -/
def note (c : Client) (call : Call) : Client :=
  { c with log := { c.log with calls := c.log.calls ++ [call] } }

/-- Runs the success callback of a listener, if it gave one. -/
def onSuccess (c : Client) (data : Value) : Listener → Client
  | .record req true _ _ => c.note (.success req data)
  | .record _ false _ _ => c
  | .capture => { c with captured := some data }

/-- Runs the error callback of a listener, if it gave one. -/
def onError (c : Client) (r : Response) : Listener → Client
  | .record req _ true _ => c.note (.error req r)
  | _ => c

/-- Runs the final callback of a listener, if it gave one. -/
def onFinally (c : Client) : Listener → Client
  | .record req _ _ true => c.note (.final req)
  | _ => c

/-- Turns the loading flag off, when the request drives it. -/
def loaderOff (c : Client) (useLoader : Bool) : Client :=
  if useLoader then c.commit (.setLoading false) else c

/-- Takes the log, leaving it empty. -/
def takeLog (c : Client) : Client × Log := ({ c with log := {} }, c.log)

end Client

/-- Whether a list of tasks is ordered by due time. -/
def InFlight.Sorted (ts : List InFlight) : Prop := ts.Pairwise fun a b => a.due ≤ b.due

/-- Scheduling a request puts it among the others, losing none. -/
theorem InFlight.schedule_perm (t : InFlight) (ts : List InFlight) :
    (t.schedule ts).Perm (t :: ts) := by
  induction ts with
  | nil => simp [schedule]
  | cons u rest ih =>
    unfold schedule
    split
    · exact (List.Perm.cons u ih).trans (List.Perm.swap t u rest)
    · exact List.Perm.refl _

/-- Scheduling a request keeps the requests in order of when they are due. -/
theorem InFlight.schedule_sorted (t : InFlight) (ts : List InFlight) (h : InFlight.Sorted ts) :
    InFlight.Sorted (t.schedule ts) := by
  induction ts with
  | nil => simp [schedule, InFlight.Sorted]
  | cons u rest ih =>
    unfold InFlight.Sorted at h ⊢
    rw [List.pairwise_cons] at h
    unfold schedule
    split
    · rename_i hu
      rw [List.pairwise_cons]
      refine ⟨?_, ih h.2⟩
      intro x hx
      rcases List.mem_cons.mp ((schedule_perm t rest).subset hx) with rfl | hx'
      · exact hu
      · exact h.1 x hx'
    · rename_i hu
      rw [List.pairwise_cons, List.pairwise_cons]
      refine ⟨?_, h.1, h.2⟩
      intro x hx
      rcases List.mem_cons.mp hx with rfl | hx'
      · omega
      · exact Nat.le_trans (by omega) (h.1 x hx')

end FeedClient
