import Mathlib.Data.List.TakeWhile
import FeedClient.Client.Exchange
import FeedClient.Proofs.Json.Run

/-!
# What one request does

A request runs in two stages. `Client.issue` sends it: the loading flag goes on when the
request drives it, the server's next scripted reply is taken, exactly one request is logged
and one task is scheduled. When the reply arrives the task completes: `Client.submitted`
reads the reply of a submission and `Client.fetched` the reply of a fetch.

The effect of a completion is stated through `Client.shows`: a client whose store is
replaced and whose log gains some callbacks and events, all else unchanged. Every small
operation of the client (commit, publish, a callback, the loader) is one such step, so each
class of reply comes down to one `shows` with the store, callbacks and events written out.
A callback that panics is caught and only logged, so it shows as the call it recorded.

Main results:

- Theorem `submission_contract`: issuing a submission sends exactly the request asked for,
  and its reply is read by class: a transport failure runs only the final callback, a failure
  status shows the service's notice and runs the error callback with the response, a success
  hands its data (null for an empty body) to the success callback unless it says the user is
  not logged in; the final callback runs last and then the loading flag goes off.
- Theorem `fetch_contract`: the same for fetches, with their own asymmetric loader rules.
-/

namespace FeedClient

open Json Http

/-- The store once a request has ended: its loading flag off, when the request drives it. -/
def Store.doneLoading (st : Store) (useLoader : Bool) : Store :=
  if useLoader then { st with state := { st.state with isLoading := false } } else st

/-- A request that does not drive the loader leaves the store when it ends. -/
@[simp]
theorem Store.doneLoading_false (st : Store) : st.doneLoading false = st := rfl

/-- Turning the loading flag on or off changes nothing else in the store. -/
theorem Store.commit_setLoading (now : Nat) (st : Store) (flag : Bool) :
    st.commit now (.setLoading flag) = { st with state := { st.state with isLoading := flag } } :=
  rfl

namespace Client

/-- The client with its store replaced and callbacks and events added to its log; nothing
else changes. -/
def shows (c : Client) (st : Store) (calls : List Call) (events : List SessionEvent) : Client :=
  { c with store := st,
           log := { c.log with calls := c.log.calls ++ calls, events := c.log.events ++ events } }

variable (c : Client) (st : Store) (calls : List Call) (events : List SessionEvent)

/-- A step shown has the store given. -/
@[simp]
theorem shows_store : (c.shows st calls events).store = st := rfl

/-- A step shown keeps the clock. -/
@[simp]
theorem shows_now : (c.shows st calls events).now = c.now := rfl

/-- A step shown keeps the event listener. -/
@[simp]
theorem shows_subscribed : (c.shows st calls events).subscribed = c.subscribed := rfl

/-- A step shown keeps the network message. -/
@[simp]
theorem shows_networkMessage :
    (c.shows st calls events).networkMessage = c.networkMessage := rfl

/-- Two steps shown one after the other are one step. -/
@[simp]
theorem shows_shows (st' : Store) (calls' : List Call) (events' : List SessionEvent) :
    (c.shows st calls events).shows st' calls' events' =
      c.shows st' (calls ++ calls') (events ++ events') := by
  simp [shows, List.append_assoc]

/-- A step that shows nothing new is no step. -/
@[simp]
theorem shows_self : c.shows c.store [] [] = c := by
  simp [shows]

/-! ## The client's small operations as steps -/

/-- A commit is a step with the mutated store and nothing logged. -/
theorem commit_eq_shows (m : Mutation) : c.commit m = c.shows (c.store.commit c.now m) [] [] := by
  simp [commit, shows]

/-- Publishing is a step that logs the event when someone listens. -/
theorem publish_eq_shows (e : SessionEvent) :
    c.publish e = c.shows c.store [] (if c.subscribed then [e] else []) := by
  cases h : c.subscribed
  · simp [publish, h]
  · simp [publish, shows, h]

/-- Recording a callback is a step that logs the call. -/
theorem note_eq_shows (call : Call) : c.note call = c.shows c.store [call] [] := by
  simp [note, shows]

variable (idx : Nat) (success error final : Bool)

/-- A recording listener logs the success when it asked for it. -/
theorem onSuccess_record (data : Value) :
    c.onSuccess data (.record idx success error final) =
      c.shows c.store (if success then [.success idx data] else []) [] := by
  cases success <;> simp [onSuccess, note_eq_shows]

/-- A recording listener logs the error when it asked for it. -/
theorem onError_record (r : Response) :
    c.onError r (.record idx success error final) =
      c.shows c.store (if error then [.error idx r] else []) [] := by
  cases error <;> simp [onError, note_eq_shows]

/-- A recording listener logs the end when it asked for it. -/
theorem onFinally_record :
    c.onFinally (.record idx success error final) =
      c.shows c.store (if final then [.final idx] else []) [] := by
  cases final <;> simp [onFinally, note_eq_shows]

/-- Turning the loader off is a step with the loading flag off, when the request drives it. -/
theorem loaderOff_eq_shows (useLoader : Bool) :
    c.loaderOff useLoader = c.shows (c.store.doneLoading useLoader) [] [] := by
  cases useLoader
  · simp [loaderOff]
  · simp [loaderOff, commit_eq_shows, Store.doneLoading, Store.commit_setLoading]

/-! ## Issuing a request -/

/-- Issuing a request logs exactly that request, takes one entry of the script and schedules
one task carrying its reply; only the loading flag may change in the store. -/
theorem issue_eq (style : Style) (method : Method) (path token : String) (body : Body)
    (listener : Listener) (useLoader : Bool) :
    c.issue style method path token body listener useLoader =
      let t : InFlight :=
        { due := wakeAt c.now (Scripted.next c.script).1.delay, style,
          reply := (Scripted.next c.script).1.reply, listener, useLoader }
      ({ c with
          store := if useLoader then c.store.commit c.now (.setLoading true) else c.store,
          script := (Scripted.next c.script).2,
          pending := t.schedule c.pending,
          log := { c.log with
            requests := c.log.requests ++ [{ method, url := c.url path, authorization := token,
                                               body }] } },
        t.due) := by
  cases useLoader <;> rfl

/-- The base URL of a client is the one it was given less its trailing slashes. -/
theorem create_baseUrl (store : Store) (base message : String) (script : List Scripted)
    (subscribed : Bool) :
    let b := (create store base message script subscribed).baseUrl
    b.toList.getLast? ≠ some '/' ∧ ∃ n, base.toList = b.toList ++ List.replicate n '/' := by
  intro b
  have hb : b.toList = (base.toList.reverse.dropWhile (· == '/')).reverse := by
    simp [b, create, trimBase]
  -- the slashes dropped from the reversed text are its leading run of slashes
  have hslashes : ∀ x ∈ base.toList.reverse.takeWhile (· == '/'), x = '/' := by
    intro x hx
    simpa using List.mem_takeWhile_imp hx
  constructor
  · rw [hb, List.getLast?_reverse]
    intro hhead
    have := List.head?_dropWhile_not (· == '/') base.toList.reverse
    simp [hhead] at this
  · refine ⟨(base.toList.reverse.takeWhile (· == '/')).length, ?_⟩
    have hrep : (base.toList.reverse.takeWhile (· == '/')).reverse =
        List.replicate (base.toList.reverse.takeWhile (· == '/')).length '/' :=
      List.eq_replicate_iff.mpr ⟨by simp, fun x hx => hslashes x (List.mem_reverse.mp hx)⟩
    calc base.toList
        = (base.toList.reverse.takeWhile (· == '/') ++
            base.toList.reverse.dropWhile (· == '/')).reverse := by
          rw [List.takeWhile_append_dropWhile, List.reverse_reverse]
      _ = (base.toList.reverse.dropWhile (· == '/')).reverse ++
            (base.toList.reverse.takeWhile (· == '/')).reverse := List.reverse_append
      _ = b.toList ++ List.replicate (base.toList.reverse.takeWhile (· == '/')).length '/' := by
          rw [hb, hrep]

/-! ## Submissions -/

section Submission

variable (c : Client) (t : InFlight) (idx : Nat) (success error final : Bool)

/-- The data of a successful reply with an empty body is null. -/
theorem submittedData_of_body_nil {r : Response} (h : r.body = []) :
    submittedData r = .ok .null := by
  simp [submittedData, h]

/-- The data of a successful reply with a body is that body read as JSON. -/
theorem submittedData_of_body_ne_nil {r : Response} (h : r.body ≠ []) :
    submittedData r = r.json := by
  simp [submittedData, h]

/-- Null data never says that the user is not logged in. -/
@[simp]
theorem saysNotLoggedIn_null : saysNotLoggedIn .null = false := rfl

/-- A submission's reply is read, then its final callback runs and the loader goes off. -/
theorem submitted_eq (ht : t.listener = .record idx success error final) :
    c.submitted t = (c.answered t).shows ((c.answered t).store.doneLoading t.useLoader)
      (if final then [.final idx] else []) [] := by
  rw [submitted, ht, onFinally_record, loaderOff_eq_shows, shows_shows, shows_store]
  simp

variable (ht : t.listener = .record idx success error final)
include ht

/-- A transport failure runs no callback but the final one. -/
theorem submitted_of_failure {msg : String} (hr : t.reply = .failure msg) :
    c.submitted t = c.shows (c.store.doneLoading t.useLoader)
      (if final then [.final idx] else []) [] := by
  rw [submitted_eq c t idx success error final ht]
  simp [answered, hr]

/-- A failure status whose body is a notice shows the notice as an alert, then runs the error
callback with the response as it came. -/
theorem submitted_of_refused_notice {r : Response} {n : Notice} (hr : t.reply = .response r)
    (hs : r.isSuccess = false) (hn : Notice.read r.body = .ok n) :
    c.submitted t =
      c.shows ((c.store.commit c.now (.setAlert n.toAlert)).doneLoading t.useLoader)
        ((if error then [.error idx r] else []) ++ (if final then [.final idx] else [])) [] := by
  rw [submitted_eq c t idx success error final ht]
  simp [answered, hr, hs, hn, ht, commit_eq_shows, onError_record]

/-- A failure status whose body is no notice leaves the alert as it was and runs the error
callback with the response. -/
theorem submitted_of_refused_other {r : Response} {e : Json.Error} (hr : t.reply = .response r)
    (hs : r.isSuccess = false) (hn : Notice.read r.body = .error e) :
    c.submitted t =
      c.shows (c.store.doneLoading t.useLoader)
        ((if error then [.error idx r] else []) ++ (if final then [.final idx] else [])) [] := by
  rw [submitted_eq c t idx success error final ht]
  simp [answered, hr, hs, hn, ht, onError_record]

/-- A success with an empty body hands null to the success callback. -/
theorem submitted_of_empty {r : Response} (hr : t.reply = .response r)
    (hs : r.isSuccess = true) (hb : r.body = []) :
    c.submitted t =
      c.shows (c.store.doneLoading t.useLoader)
        ((if success then [.success idx .null] else []) ++ (if final then [.final idx] else []))
        [] := by
  rw [submitted_eq c t idx success error final ht]
  simp [answered, hr, hs, submittedData_of_body_nil hb, ht, onSuccess_record]

/-- A success whose body is not JSON runs no callback but the final one. -/
theorem submitted_of_unreadable {r : Response} {e : Json.Error} (hr : t.reply = .response r)
    (hs : r.isSuccess = true) (hb : r.body ≠ []) (hj : r.json = .error e) :
    c.submitted t =
      c.shows (c.store.doneLoading t.useLoader) (if final then [.final idx] else []) [] := by
  rw [submitted_eq c t idx success error final ht]
  simp [answered, hr, hs, submittedData_of_body_ne_nil hb, hj]

/-- A success whose data says that the user is not logged in publishes that instead of running
the success callback. -/
theorem submitted_of_signed_out {r : Response} {data : Value} (hr : t.reply = .response r)
    (hs : r.isSuccess = true) (hb : r.body ≠ []) (hj : r.json = .ok data)
    (hout : saysNotLoggedIn data = true) :
    c.submitted t =
      c.shows (c.store.doneLoading t.useLoader) (if final then [.final idx] else [])
        (if c.subscribed then [.invalidated .notLoggedIn] else []) := by
  rw [submitted_eq c t idx success error final ht]
  simp [answered, hr, hs, submittedData_of_body_ne_nil hb, hj, hout, publish_eq_shows]

/-- Any other success hands its data to the success callback. -/
theorem submitted_of_accepted {r : Response} {data : Value} (hr : t.reply = .response r)
    (hs : r.isSuccess = true) (hb : r.body ≠ []) (hj : r.json = .ok data)
    (hout : saysNotLoggedIn data = false) :
    c.submitted t =
      c.shows (c.store.doneLoading t.useLoader)
        ((if success then [.success idx data] else []) ++ (if final then [.final idx] else []))
        [] := by
  rw [submitted_eq c t idx success error final ht]
  simp [answered, hr, hs, submittedData_of_body_ne_nil hb, hj, hout, ht, onSuccess_record]

end Submission

/-- A submission sends exactly the request asked for, to the URL of its path, and schedules one
task for the script's next reply. When the reply arrives it is read by class; whatever the
class, the final callback runs last and the loading flag goes off after it, and the store
changes in nothing but the loading flag and, for a failure status with a notice, the alert. -/
theorem submission_contract (c : Client) (method : Method) (path token : String) (body : Body)
    (idx : Nat) (success error final useLoader : Bool) :
    let listener := Listener.record idx success error final
    let finals := if final then [Call.final idx] else []
    let task (due : Nat) (reply : Reply) : InFlight :=
      { due, style := .submit, reply, listener, useLoader }
    c.issue .submit method path token body listener useLoader =
      ({ c with
          store := if useLoader then c.store.commit c.now (.setLoading true) else c.store,
          script := (Scripted.next c.script).2,
          pending := (task (wakeAt c.now (Scripted.next c.script).1.delay)
            (Scripted.next c.script).1.reply).schedule c.pending,
          log := { c.log with
            requests := c.log.requests ++ [{ method, url := c.url path, authorization := token,
                                               body }] } },
        wakeAt c.now (Scripted.next c.script).1.delay) ∧
    (c.url path = if path.startsWith "/" then c.baseUrl ++ path else c.baseUrl ++ "/" ++ path) ∧
    (∀ (store : Store) (base message : String) (script : List Scripted) (subscribed : Bool),
      let b := (create store base message script subscribed).baseUrl
      b.toList.getLast? ≠ some '/' ∧ ∃ n, base.toList = b.toList ++ List.replicate n '/') ∧
    (∀ (c' : Client) (due : Nat) (msg : String),
      c'.submitted (task due (.failure msg)) = c'.shows (c'.store.doneLoading useLoader) finals []) ∧
    (∀ (c' : Client) (due : Nat) (r : Response) (n : Notice),
      r.isSuccess = false → Notice.read r.body = .ok n →
      c'.submitted (task due (.response r)) =
        c'.shows ((c'.store.commit c'.now (.setAlert n.toAlert)).doneLoading useLoader)
          ((if error then [.error idx r] else []) ++ finals) []) ∧
    (∀ (c' : Client) (due : Nat) (r : Response) (e : Json.Error),
      r.isSuccess = false → Notice.read r.body = .error e →
      c'.submitted (task due (.response r)) =
        c'.shows (c'.store.doneLoading useLoader)
          ((if error then [.error idx r] else []) ++ finals) []) ∧
    (∀ (c' : Client) (due : Nat) (r : Response),
      r.isSuccess = true → r.body = [] →
      c'.submitted (task due (.response r)) =
        c'.shows (c'.store.doneLoading useLoader)
          ((if success then [.success idx .null] else []) ++ finals) []) ∧
    (∀ (c' : Client) (due : Nat) (r : Response) (e : Json.Error),
      r.isSuccess = true → r.body ≠ [] → r.json = .error e →
      c'.submitted (task due (.response r)) = c'.shows (c'.store.doneLoading useLoader) finals []) ∧
    (∀ (c' : Client) (due : Nat) (r : Response) (data : Value),
      r.isSuccess = true → r.body ≠ [] → r.json = .ok data → saysNotLoggedIn data = true →
      c'.submitted (task due (.response r)) =
        c'.shows (c'.store.doneLoading useLoader) finals
          (if c'.subscribed then [.invalidated .notLoggedIn] else [])) ∧
    (∀ (c' : Client) (due : Nat) (r : Response) (data : Value),
      r.isSuccess = true → r.body ≠ [] → r.json = .ok data → saysNotLoggedIn data = false →
      c'.submitted (task due (.response r)) =
        c'.shows (c'.store.doneLoading useLoader)
          ((if success then [.success idx data] else []) ++ finals) []) := by
  intro listener finals task
  refine ⟨issue_eq c .submit method path token body listener useLoader, rfl, create_baseUrl,
    ?_, ?_, ?_, ?_, ?_, ?_, ?_⟩
  · intro c' due msg
    exact submitted_of_failure c' _ idx success error final rfl rfl
  · intro c' due r n hs hn
    exact submitted_of_refused_notice c' _ idx success error final rfl rfl hs hn
  · intro c' due r e hs hn
    exact submitted_of_refused_other c' _ idx success error final rfl rfl hs hn
  · intro c' due r hs hb
    exact submitted_of_empty c' _ idx success error final rfl rfl hs hb
  · intro c' due r e hs hb hj
    exact submitted_of_unreadable c' _ idx success error final rfl rfl hs hb hj
  · intro c' due r data hs hb hj hout
    exact submitted_of_signed_out c' _ idx success error final rfl rfl hs hb hj hout
  · intro c' due r data hs hb hj hout
    exact submitted_of_accepted c' _ idx success error final rfl rfl hs hb hj hout

/-- A fresh client posts to `/post` and the service answers `204` with no body: the success
callback receives null, then the final callback runs and the loader goes off. -/
theorem submission_contract_no_content :
    let c := create (Store.create ⟨.memory [], {}⟩ {}) "http://api.test/" "down" [] true
    let r : Response := { status := 204, body := [] }
    r.isSuccess = true ∧ r.body = [] ∧
      c.submitted { due := 0, style := .submit, reply := .response r,
                    listener := .record 0 true false true, useLoader := true } =
        c.shows (c.store.doneLoading true) ([.success 0 .null] ++ [.final 0]) [] := by
  intro c r
  obtain ⟨-, -, -, -, -, -, hempty, -⟩ :=
    submission_contract c Method.post "/post" "tok" .empty 0 true false true true
  exact ⟨by decide, rfl, hempty c 0 r (by decide) rfl⟩

/-! ## Fetches -/

/-- A success status is neither `403` nor `404`. -/
theorem status_ne_of_isSuccess {r : Response} (h : r.isSuccess = true) :
    r.status ≠ 403 ∧ r.status ≠ 404 := by
  simp only [Response.isSuccess, Bool.and_eq_true, decide_eq_true_eq] at h
  constructor <;> intro heq <;> simp [heq] at h

/-- An empty body is not JSON. -/
theorem json_of_body_nil {r : Response} (h : r.body = []) :
    r.json = .error { fault := .malformed .eofInValue, position := some ⟨1, 0⟩ } := by
  rw [Response.json, h, Value.read_nil]

section Fetch

variable (c : Client) (t : InFlight) {r : Response}

/-- A transport failure shows the network alert, with the client's message, and leaves the
loading flag as it is. -/
theorem fetched_of_failure {msg : String} (hr : t.reply = .failure msg) :
    c.fetched t =
      c.shows (c.store.commit c.now (.setAlert { kind := Alert.networkError,
                                                 message := c.networkMessage })) [] [] := by
  simp [fetched, hr, commit_eq_shows]

/-- `403` signs out, in memory even when the vault refuses, and publishes `forbidden`; the
loading flag stays as it is. -/
theorem fetched_of_forbidden (hr : t.reply = .response r) (h : r.status = 403) :
    c.fetched t =
      c.shows { c.store with vault := (c.store.vault.remove sessionKey).1,
                             state := { c.store.state with session := ⟨""⟩ } }
        [] (if c.subscribed then [.invalidated .forbidden] else []) := by
  rw [fetched, hr]
  simp only [h, beq_self_eq_true, ↓reduceIte]
  -- `rw` also rewrites the flag inside the decision of the event's `if`
  rw [commit_eq_shows, publish_eq_shows, shows_subscribed, shows_shows]
  simp [Store.commit]

/-- `404` only turns the loading flag off. -/
theorem fetched_of_missing (hr : t.reply = .response r) (h : r.status = 404) :
    c.fetched t = c.shows (c.store.doneLoading t.useLoader) [] [] := by
  simp [fetched, hr, h, loaderOff_eq_shows]

/-- Any other failure status changes nothing at all. -/
theorem fetched_of_refused (hr : t.reply = .response r) (h403 : r.status ≠ 403)
    (h404 : r.status ≠ 404) (hs : r.isSuccess = false) : c.fetched t = c := by
  simp [fetched, hr, h403, h404, hs]

/-- A success whose body is not JSON runs no callback and turns the loading flag off. -/
theorem fetched_of_unreadable {e : Json.Error} (hr : t.reply = .response r)
    (hs : r.isSuccess = true) (hj : r.json = .error e) :
    c.fetched t = c.shows (c.store.doneLoading t.useLoader) [] [] := by
  have hne := status_ne_of_isSuccess hs
  simp [fetched, hr, hs, hj, hne.1, hne.2, loaderOff_eq_shows]

variable (idx : Nat) (error final : Bool) (ht : t.listener = .record idx true error final)
include ht

/-- A success whose body is JSON hands the data to the success callback, once, and then
turns the loading flag off. -/
theorem fetched_of_data {data : Value} (hr : t.reply = .response r) (hs : r.isSuccess = true)
    (hj : r.json = .ok data) :
    c.fetched t = c.shows (c.store.doneLoading t.useLoader) [.success idx data] [] := by
  have hne := status_ne_of_isSuccess hs
  simp [fetched, hr, hs, hj, hne.1, hne.2, ht, onSuccess_record, loaderOff_eq_shows]

end Fetch

/-- A fetch sends exactly one `GET` with an empty body to the URL of its path, carrying the
token, and schedules one task for the script's next reply. When the reply arrives: a
transport failure shows the network alert and keeps the loader on; `403` signs out in memory
and in the vault and publishes `forbidden`, keeping the loader on; `404` turns the loader
off; any other failure status changes nothing; a success hands its data, when the body is
JSON (an empty body is not), to the success callback once and then turns the loader off.
The success callback runs in no other case, and the signed-in user never changes. -/
theorem fetch_contract (c : Client) (path token : String) (idx : Nat) (useLoader : Bool) :
    let listener := Listener.record idx true false false
    let task (due : Nat) (reply : Reply) : InFlight :=
      { due, style := .fetch, reply, listener, useLoader }
    c.issue .fetch Method.get path token .empty listener useLoader =
      ({ c with
          store := if useLoader then c.store.commit c.now (.setLoading true) else c.store,
          script := (Scripted.next c.script).2,
          pending := (task (wakeAt c.now (Scripted.next c.script).1.delay)
            (Scripted.next c.script).1.reply).schedule c.pending,
          log := { c.log with
            requests := c.log.requests ++ [{ method := Method.get, url := c.url path,
                                               authorization := token, body := .empty }] } },
        wakeAt c.now (Scripted.next c.script).1.delay) ∧
    (∀ (c' : Client) (due : Nat) (msg : String),
      c'.fetched (task due (.failure msg)) =
        c'.shows (c'.store.commit c'.now
          (.setAlert { kind := "network-error", message := c'.networkMessage, requestId := none }))
          [] []) ∧
    (∀ (c' : Client) (due : Nat) (r : Response), r.status = 403 →
      c'.fetched (task due (.response r)) =
        c'.shows { c'.store with vault := (c'.store.vault.remove "jwt").1,
                                 state := { c'.store.state with session := ⟨""⟩ } }
          [] (if c'.subscribed then [.invalidated .forbidden] else [])) ∧
    (∀ (c' : Client) (due : Nat) (r : Response), r.status = 404 →
      c'.fetched (task due (.response r)) = c'.shows (c'.store.doneLoading useLoader) [] []) ∧
    (∀ (c' : Client) (due : Nat) (r : Response),
      r.status ≠ 403 → r.status ≠ 404 → r.isSuccess = false →
      c'.fetched (task due (.response r)) = c') ∧
    (∀ (c' : Client) (due : Nat) (r : Response) (data : Value),
      r.isSuccess = true → r.json = .ok data →
      c'.fetched (task due (.response r)) =
        c'.shows (c'.store.doneLoading useLoader) [.success idx data] []) ∧
    (∀ (c' : Client) (due : Nat) (r : Response) (e : Json.Error),
      r.isSuccess = true → r.json = .error e →
      c'.fetched (task due (.response r)) = c'.shows (c'.store.doneLoading useLoader) [] []) ∧
    (∀ r : Response, r.body = [] → ∃ e, r.json = .error e) := by
  intro listener task
  refine ⟨issue_eq c .fetch Method.get path token .empty listener useLoader, ?_, ?_, ?_, ?_, ?_, ?_,
    fun r h => ⟨_, json_of_body_nil h⟩⟩
  · intro c' due msg
    exact fetched_of_failure c' _ rfl
  · intro c' due r h
    exact fetched_of_forbidden c' _ rfl h
  · intro c' due r h
    exact fetched_of_missing c' _ rfl h
  · intro c' due r h403 h404 hs
    exact fetched_of_refused c' _ rfl h403 h404 hs
  · intro c' due r data hs hj
    exact fetched_of_data c' _ idx false false rfl rfl hs hj
  · intro c' due r e hs hj
    exact fetched_of_unreadable c' _ rfl hs hj

/-- A fresh client fetches `/user/ghost` and the service answers `404`: the loader goes off and
nothing else changes. -/
theorem fetch_contract_not_found :
    let c := create (Store.create ⟨.memory [], {}⟩ {}) "http://api.test/" "down" [] true
    let r : Response := { status := 404, body := [] }
    r.status = 404 ∧
      c.fetched { due := 0, style := .fetch, reply := .response r,
                  listener := .record 0 true false false, useLoader := true } =
        c.shows (c.store.doneLoading true) [] [] := by
  intro c r
  obtain ⟨-, -, -, hmissing, -⟩ := fetch_contract c "/user/ghost" "tok" 0 true
  exact ⟨rfl, hmissing c 0 r rfl⟩

end Client

end FeedClient
