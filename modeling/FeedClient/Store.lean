import FeedClient.Snapshot
import FeedClient.Settings
import FeedClient.Storage.Vault
import FeedClient.Json.Writer
import FeedClient.Timer

/-!
# The client store

The store holds what the client knows: the session, the signed-in user, whether a request is
loading, and the alert shown. It changes only through a `Mutation`. Setting a session also
writes it to the vault under `sessionKey`, as compact JSON; clearing the session removes that
key. Storage failures are not the store's concern: the state changes all the same.

Setting an alert spawns a task that clears it: `clearDelay` milliseconds later (a timer, so
at most `longestWait`) the alert is blanked as the `ClearPolicy` says. The `AlertTimer` keeps
a generation, counted in 64 bits that wrap around, and the handle of the pending clear task.
A new alert supersedes the old one: it aborts the pending task and takes the next
generation. A task that wakes clears the alert only when its generation is still the
current one, and then drops its handle. `Store.clearDue` runs the pending task once the
clock has reached the end of its sleep.

Main statements:

- `commit_setAlert_pending`: an alert arms the clear when a timer of the delay ends.
- `clearDue_of_lt`: a clear whose sleep has not ended does nothing.
-/

namespace FeedClient

open Json

/-- How the store treats alerts: the delay before a clear, and what a clear blanks. -/
structure StoreOptions where
  clearDelay : Nat := 5000
  clearPolicy : ClearPolicy := .typeAndMessage

/-- The store options that settings ask for. -/
def Settings.storeOptions (s : Settings) : StoreOptions :=
  { clearDelay := s.alertClearDelayMs.toNat, clearPolicy := s.alertClearPolicy }

/-- A change to the store. -/
inductive Mutation where
  /-- Signs in with a session, and keeps it in the vault. -/
  | setSession (s : Session)
  /-- Takes a session read back from the vault. -/
  | restoreSession (s : Session)
  /-- Signs out: the token is blanked and the vault forgets it. -/
  | clearSession
  | setCurrentUser (p : Profile)
  | setLoading (flag : Bool)
  /-- Shows an alert and arms its clear. -/
  | setAlert (a : Alert)

/-- The vault key that holds the session. -/
def sessionKey : String := "jwt"

/-- A spawned alert clear task: the generation it was spawned for and when its sleep ends. -/
structure ClearTask where
  generation : UInt64
  wake : Nat

/-- The alert timer: the generation of the newest alert and the handle of its clear task,
while that task is pending. -/
structure AlertTimer where
  generation : UInt64 := 0
  pending : Option ClearTask := none

namespace AlertTimer

/-- Aborts the pending clear task, if any: an aborted task never runs. -/
def cancel (tm : AlertTimer) : AlertTimer := { tm with pending := none }

/-- Aborts the pending task and moves to the next generation, wrapping around. -/
def supersede (tm : AlertTimer) : AlertTimer :=
  { tm.cancel with generation := tm.generation + 1 }

/-- Keeps the handle of a spawned clear task. -/
def arm (tm : AlertTimer) (task : ClearTask) : AlertTimer := { tm with pending := some task }

/-- Whether a task of generation `g` belongs to the newest alert. -/
def isCurrent (tm : AlertTimer) (g : UInt64) : Bool := tm.generation == g

/-- Drops the handle of a finished task, when it belongs to the newest alert. -/
def finish (tm : AlertTimer) (g : UInt64) : AlertTimer :=
  if tm.isCurrent g then { tm with pending := none } else tm

end AlertTimer

/-- The client store: its state, the alert timer, the vault and the options. -/
structure Store where
  state : Snapshot := {}
  timer : AlertTimer := {}
  vault : Vault
  options : StoreOptions := {}

namespace Store

/-- A fresh store over a vault: signed out, loading, no alert. -/
def create (vault : Vault) (options : StoreOptions) : Store := { vault, options }

/-- Applies a mutation at time `now`. -/
def commit (now : Nat) (st : Store) : Mutation → Store
  | .setSession s =>
    { st with vault := (st.vault.set sessionKey s.toValue.compact).1,
              state := { st.state with session := s } }
  | .restoreSession s => { st with state := { st.state with session := s } }
  | .clearSession =>
    { st with vault := (st.vault.remove sessionKey).1,
              state := { st.state with session := ⟨""⟩ } }
  | .setCurrentUser p => { st with state := { st.state with currentUser := p } }
  | .setLoading flag => { st with state := { st.state with isLoading := flag } }
  | .setAlert a =>
    let timer := st.timer.supersede
    { st with state := { st.state with alert := a },
              timer := timer.arm ⟨timer.generation, wakeAt now st.options.clearDelay⟩ }

/-- What the clear task of generation `g` does once it holds the store: a task of an older
alert does nothing; the task of the newest alert blanks it and drops its own handle. -/
def runClear (g : UInt64) (st : Store) : Store :=
  if st.timer.isCurrent g then
    { st with state := { st.state with alert := st.state.alert.cleared st.options.clearPolicy },
              timer := st.timer.finish g }
  else st

/-- Runs the pending clear task when its sleep ends at or before `t`. -/
def clearDue (t : Nat) (st : Store) : Store :=
  match st.timer.pending with
  | some task => if task.wake ≤ t then st.runClear task.generation else st
  | none => st

/-- Reads the session back from the vault. A session that is missing, unreadable, not JSON
of a session or blank is ignored; a good one is taken and returned. -/
def restoreSession (st : Store) : Store × Option Session :=
  match st.vault.get sessionKey with
  | .ok (some raw) =>
    match Session.readText raw with
    | .ok s => if s.isAuthenticated then (st.commit 0 (.restoreSession s), some s) else (st, none)
    | .error _ => (st, none)
  | _ => (st, none)

/-- The access token of the session held. -/
def accessToken (st : Store) : String := st.state.session.accessToken

/-- An alert arms its clear for the next generation, due when a timer of the delay ends. -/
theorem commit_setAlert_pending (now : Nat) (st : Store) (a : Alert) :
    (st.commit now (.setAlert a)).timer.pending =
      some ⟨st.timer.generation + 1, wakeAt now st.options.clearDelay⟩ := rfl

/-- Setting the loading flag sets it. -/
@[simp]
theorem commit_setLoading_state (now : Nat) (st : Store) (flag : Bool) :
    (st.commit now (.setLoading flag)).state.isLoading = flag := rfl

/-- A clear whose sleep has not ended does nothing. -/
theorem clearDue_of_lt (t : Nat) (task : ClearTask) (st : Store)
    (h : st.timer.pending = some task) (hlt : t < task.wake) : st.clearDue t = st := by
  unfold clearDue
  rw [h]
  simp [Nat.not_le.mpr hlt]

/-- With no clear pending, the alert clear does nothing. -/
@[simp]
theorem clearDue_none (t : Nat) (st : Store) (h : st.timer.pending = none) :
    st.clearDue t = st := by
  unfold clearDue
  rw [h]

end Store

end FeedClient
