import FeedClient.Client.Flow
import FeedClient.Proofs.Requests
import FeedClient.Proofs.Session
import FeedClient.Proofs.AlertClear

/-!
# Starting and signing in

The flows of the application send their requests themselves and wait for them. On a client
with nothing else in flight, such a request completes alone: `Client.fetchOwn` sends it, the
reply arrives, and the data of its success, if any, comes back. What the flows change is read
through `Client.seen`: the session and the vault, the signed-in user, the loading flag, and
what the log gathered. The alert and its timer are read through `Store.alerting`: a request of
one's own leaves them as the clears due while it waits leave them, unless its reply is a
transport failure, which shows the network alert as every fetch does.

The replies are described by what they hand over: `Reply.fetchedData` is the data of a fetch's
success and `Reply.acceptedData` that of a submission's, and the flags `Reply.signsOut`,
`Reply.endsLoading`, `Reply.saysSignedOut` and `Reply.showsNotice` say what else a reply does.

Main results:

- Theorem `Client.loadCurrentUser_eq`: loading the user sends one `GET` of `/user/me` with the
  session's token, keeps the profile its data reads as, and otherwise leaves what the reply to
  a fetch leaves.
- Theorem `Client.loadCurrentUser_alert`: loading the user shows the network alert, for the
  next generation of the timer, exactly when the reply is a transport failure.
- Theorem `start_contract`: starting restores a session with a token and loads its user, or,
  without one, only stops loading.
- Theorem `login_contract`: signing in returns a session exactly when the reply's data reads as
  one with a token; then the session is kept and its user loaded, and otherwise the session,
  the vault and the user stay as they were.
-/

namespace FeedClient

open Json Http

/-! ## What a reply hands over -/

namespace Http.Reply

/-- The data a fetch's reply hands to its success callback: the body of a success, read as
JSON. -/
def fetchedData : Reply → Option Value
  | .response r => if r.isSuccess then r.json.toOption else none
  | .failure _ => none

/-- Whether the reply to a fetch signs the user out: status `403`. -/
def signsOut : Reply → Bool
  | .response r => r.status == 403
  | .failure _ => false

/-- Whether the reply to a fetch turns the loading flag off: `404`, or a success. -/
def endsLoading : Reply → Bool
  | .response r => r.status == 404 || r.isSuccess
  | .failure _ => false

/-- The data a submission's reply hands to its success callback: the data of a success (null
for an empty body), unless it says that the user is not logged in. -/
def acceptedData : Reply → Option Value
  | .response r =>
    if r.isSuccess then
      match Client.submittedData r with
      | .ok d => if saysNotLoggedIn d then none else some d
      | .error _ => none
    else none
  | .failure _ => none

/-- Whether the reply to a submission says that the user is not logged in. -/
def saysSignedOut : Reply → Bool
  | .response r =>
    r.isSuccess &&
      match Client.submittedData r with
      | .ok d => saysNotLoggedIn d
      | .error _ => false
  | .failure _ => false

/-- Whether the reply to a submission is a refusal whose body is a notice, shown as an alert. -/
def showsNotice : Reply → Bool
  | .response r => !r.isSuccess && (Notice.read r.body).toBool
  | .failure _ => false

/-- Whether the reply is a transport failure, which a fetch shows as the network alert. -/
def failed : Reply → Bool
  | .response _ => false
  | .failure _ => true

/-- The accepted data of a reply: the data of a success that does not say that the user is not
logged in. -/
theorem acceptedData_eq_some {reply : Reply} {d : Value} :
    reply.acceptedData = some d ↔ ∃ r, reply = .response r ∧ r.isSuccess = true ∧
      Client.submittedData r = .ok d ∧ saysNotLoggedIn d = false := by
  cases reply with
  | failure msg => simp [acceptedData]
  | response r =>
    simp only [acceptedData, response.injEq, exists_eq_left']
    cases hs : r.isSuccess with
    | false => simp
    | true =>
      cases hd : Client.submittedData r with
      | error e => simp
      | ok x =>
        cases hn : saysNotLoggedIn x with
        | true =>
          simp only [hn, ↓reduceIte, reduceCtorEq, false_iff, not_and, Except.ok.injEq]
          rintro - rfl
          simp [hn]
        | false =>
          simp only [hn, Bool.false_eq_true, ↓reduceIte, Option.some.injEq, Except.ok.injEq, true_and]
          constructor
          · rintro rfl
            exact ⟨rfl, hn⟩
          · rintro ⟨rfl, -⟩
            rfl

/-- A reply whose data is accepted does not say that the user is signed out. -/
theorem saysSignedOut_of_acceptedData {reply : Reply} {d : Value} (h : reply.acceptedData = some d) :
    reply.saysSignedOut = false := by
  obtain ⟨r, rfl, hs, hd, hout⟩ := acceptedData_eq_some.mp h
  simp [saysSignedOut, hs, hd, hout]

/-- The session a submission's reply signs in with: the accepted data, once unwrapped, read as a
session with a token. A success with an empty body has null for its data, which is no session,
so this is the data of a success whose body is JSON. -/
theorem acceptedSession_iff (reply : Reply) (s : Session) :
    (reply.acceptedData.bind fun d =>
        ((Session.ofValue (unwrapData d)).toOption).filter (·.isAuthenticated)) = some s ↔
      ∃ r data, reply = .response r ∧ r.isSuccess = true ∧ r.json = .ok data ∧
        saysNotLoggedIn data = false ∧ Session.ofValue (unwrapData data) = .ok s ∧
        s.isAuthenticated = true := by
  -- a session read from data that the data reads as, with a token
  have hread : ∀ d : Value, ((Session.ofValue (unwrapData d)).toOption).filter
      (·.isAuthenticated) = some s ↔ Session.ofValue (unwrapData d) = .ok s ∧
        s.isAuthenticated = true := by
    intro d
    cases hv : Session.ofValue (unwrapData d) with
    | error e => simp [Except.toOption]
    | ok s' =>
      simp only [Except.toOption, Option.filter_some, Except.ok.injEq]
      by_cases hauth : s'.isAuthenticated = true
      · simp only [hauth, ↓reduceIte, Option.some.injEq]
        constructor
        · rintro rfl
          exact ⟨rfl, hauth⟩
        · rintro ⟨rfl, -⟩
          rfl
      · simp only [hauth, Bool.false_eq_true, ↓reduceIte, reduceCtorEq, false_iff, not_and]
        rintro rfl
        simpa using hauth
  constructor
  · intro h
    obtain ⟨d, hd, hs⟩ := Option.bind_eq_some_iff.mp h
    obtain ⟨r, rfl, hsucc, hdata, hout⟩ := acceptedData_eq_some.mp hd
    obtain ⟨hv, hauth⟩ := (hread d).mp hs
    -- the data is no null read from an empty body, so it is the body read as JSON
    have hb : r.body ≠ [] := by
      intro hb
      rw [Client.submittedData_of_body_nil hb] at hdata
      cases hdata
      have hnull : Session.ofValue (unwrapData .null) = .ok s → False := by
        intro h'
        have : (Session.ofValue (unwrapData .null)).toOption = none := rfl
        simp [h', Except.toOption] at this
      exact hnull hv
    rw [Client.submittedData_of_body_ne_nil hb] at hdata
    exact ⟨r, d, rfl, hsucc, hdata, hout, hv, hauth⟩
  · rintro ⟨r, data, rfl, hsucc, hj, hout, hv, hauth⟩
    have hb : r.body ≠ [] := by
      intro hb
      rw [Client.json_of_body_nil hb] at hj
      cases hj
    refine Option.bind_eq_some_iff.mpr ⟨data, ?_, (hread data).mpr ⟨hv, hauth⟩⟩
    exact acceptedData_eq_some.mpr ⟨r, rfl, hsucc, by rw [Client.submittedData_of_body_ne_nil hb, hj], hout⟩

end Http.Reply

/-! ## Restoring a session -/

namespace Store

/-- A store whose vault holds, under the session key, the text of a session with a token
restores that session. -/
theorem restoreSession_of_session {st : Store} {raw : String} {s : Session}
    (hget : st.vault.get sessionKey = .ok (some raw)) (hread : Session.readText raw = .ok s)
    (hauth : s.isAuthenticated = true) :
    st.restoreSession = (st.commit 0 (.restoreSession s), some s) := by
  unfold restoreSession
  rw [hget]
  simp only [hread, hauth, ↓reduceIte]

/-- Any other store restores nothing and stays as it is. -/
theorem restoreSession_of_no_session {st : Store}
    (h : ¬∃ raw s, st.vault.get sessionKey = .ok (some raw) ∧ Session.readText raw = .ok s ∧
      s.isAuthenticated = true) :
    st.restoreSession = (st, none) := by
  unfold restoreSession
  split
  · rename_i raw hget
    split
    · rename_i s hread
      split
      · rename_i hauth
        exact absurd ⟨raw, s, hget, hread, hauth⟩ h
      · rfl
    · rfl
  · rfl

end Store

/-! ## The alert and its timer -/

namespace Store

/-- What alerts and their clearing read and write in a store: the alert, the timer and the
options. -/
def alerting (st : Store) : Alert × AlertTimer × StoreOptions :=
  (st.state.alert, st.timer, st.options)

/-- A mutation other than an alert leaves the alert, the timer and the options. -/
theorem alerting_commit (st : Store) (now : Nat) {m : Mutation}
    (hm : (StoreEvent.commit now m).setsAlert = false) :
    (st.commit now m).alerting = st.alerting := by
  obtain ⟨ha, ht, ho⟩ := commit_of_not_setAlert st now m hm
  rw [alerting, ha, ht, ho]
  rfl

/-- Turning the loader off leaves the alert, the timer and the options. -/
@[simp]
theorem alerting_doneLoading (st : Store) (useLoader : Bool) :
    (st.doneLoading useLoader).alerting = st.alerting := by
  cases useLoader <;> rfl

/-- Setting an alert reads only the timer and the options. -/
theorem alerting_setAlert {st st' : Store} (h : st'.alerting = st.alerting) (now : Nat)
    (a : Alert) :
    (st'.commit now (.setAlert a)).alerting = (st.commit now (.setAlert a)).alerting := by
  simp only [alerting, Prod.mk.injEq] at h
  obtain ⟨-, ht, ho⟩ := h
  simp [alerting, commit, ht, ho]

/-- The clear due at a time reads only the alert, the timer and the options. -/
theorem alerting_clearDue {st st' : Store} (h : st'.alerting = st.alerting) (t : Nat) :
    (st'.clearDue t).alerting = (st.clearDue t).alerting := by
  simp only [alerting, Prod.mk.injEq] at h
  obtain ⟨ha, ht, ho⟩ := h
  unfold clearDue runClear
  rw [ht]
  -- the same task is pending in both, and wakes or not alike
  split
  · split
    · split
      · simp [alerting, ha, ho]
      · simp [alerting, ha, ht, ho]
    · simp [alerting, ha, ht, ho]
  · simp [alerting, ha, ht, ho]

/-- The alert clear keeps the generation. -/
@[simp]
theorem clearDue_generation (t : Nat) (st : Store) :
    (st.clearDue t).timer.generation = st.timer.generation := by
  obtain ⟨a, p, h⟩ := clearDue_frame t st
  rw [h]

/-- The alert clear keeps the options. -/
@[simp]
theorem clearDue_options (t : Nat) (st : Store) : (st.clearDue t).options = st.options := by
  obtain ⟨a, p, h⟩ := clearDue_frame t st
  rw [h]

/-- The clear due at a time has run once it has run: the task that ran dropped its handle, and
a task of an older alert does nothing again. -/
theorem clearDue_clearDue (st : Store) (t : Nat) : (st.clearDue t).clearDue t = st.clearDue t := by
  cases hp : st.timer.pending with
  | none => rw [clearDue_none t st hp, clearDue_none t st hp]
  | some task =>
    by_cases hw : task.wake ≤ t
    · have hrun : st.clearDue t = st.runClear task.generation := by simp [clearDue, hp, hw]
      rw [hrun]
      by_cases hc : st.timer.isCurrent task.generation = true
      · apply clearDue_none
        simp [runClear, hc, AlertTimer.finish]
      · have hsame : st.runClear task.generation = st := by simp [runClear, hc]
        rw [hsame] at hrun ⊢
        exact hrun
    · -- the task sleeps on, now and again
      have hsame := clearDue_of_lt t task st hp (Nat.lt_of_not_le hw)
      rw [hsame, hsame]

/-- An alert set at a time, and the clear due at that time: without a delay the clear runs at
once and blanks the alert; with one, the alert stands with its clear pending. Either way the
alert has the next generation. -/
theorem clearDue_setAlert (st : Store) (t : Nat) (a : Alert) :
    ((st.commit t (.setAlert a)).clearDue t).alerting =
      (if st.options.clearDelay = 0 then a.cleared st.options.clearPolicy else a,
        { generation := st.timer.generation + 1,
          pending := if st.options.clearDelay = 0 then none
            else some ⟨st.timer.generation + 1, wakeAt t st.options.clearDelay⟩ },
        st.options) := by
  by_cases hd : st.options.clearDelay = 0
  · have hwake : wakeAt t 0 ≤ t := (wakeAt_le_iff t 0).mpr rfl
    simp [clearDue, commit, hwake, hd, runClear, alerting, AlertTimer.isCurrent,
      AlertTimer.finish, AlertTimer.supersede, AlertTimer.arm, AlertTimer.cancel]
  · have hlt : t < wakeAt t st.options.clearDelay :=
      Nat.lt_of_not_le fun h => hd ((wakeAt_le_iff t _).mp h)
    rw [clearDue_of_lt t _ _ (commit_setAlert_pending t st a) hlt]
    simp [alerting, commit, hd, AlertTimer.supersede, AlertTimer.arm, AlertTimer.cancel]

end Store

/-! ## What the flows change -/

/-- What the flows of the application are answerable for: the session and the vault, the
signed-in user, the loading flag, and what the log gathered. -/
structure Seen where
  session : Session
  vault : Vault
  user : Profile
  loading : Bool
  events : List SessionEvent
  calls : List Call
  requests : List Request

namespace Client

/-- What a client shows of what the flows change. -/
def seen (c : Client) : Seen :=
  ⟨c.store.state.session, c.store.vault, c.store.state.currentUser, c.store.state.isLoading,
    c.log.events, c.log.calls, c.log.requests⟩

variable (c : Client)

/-- What a step shown leaves of what the flows change: the store's session, vault, user and loading
flag, and the log extended. -/
theorem seen_shows (st : Store) (calls : List Call) (events : List SessionEvent) :
    (c.shows st calls events).seen =
      { c.seen with session := st.state.session, vault := st.vault, user := st.state.currentUser,
                    loading := st.state.isLoading, events := c.log.events ++ events,
                    calls := c.log.calls ++ calls } := rfl

/-- A path that starts with a slash follows the base URL directly. -/
theorem url_of_absolute {path : String} (h : path.startsWith "/" = true) :
    c.url path = c.baseUrl ++ path := by
  simp [url, h]

/-- Keeping a user changes only the user of what the flows change. -/
@[simp]
theorem commit_setCurrentUser_seen (p : Profile) :
    (c.commit (.setCurrentUser p)).seen = { c.seen with user := p } := rfl

/-! ## Listening to a request of one's own -/

variable (t : InFlight)

/-- A request of one's own captures the data of its success. -/
@[simp]
theorem onSuccess_capture (data : Value) : c.onSuccess data .capture = { c with captured := some data } :=
  rfl

/-- A request of one's own runs no error callback. -/
@[simp]
theorem onError_capture (r : Response) : c.onError r .capture = c := rfl

/-- A request of one's own runs no final callback. -/
@[simp]
theorem onFinally_capture : c.onFinally .capture = c := rfl

/-- A step shown on a client that has captured nothing captures nothing. -/
theorem shows_capture_none (hc : c.captured = none) (st : Store) (calls : List Call)
    (events : List SessionEvent) : { c.shows st calls events with captured := none } =
      c.shows st calls events := by
  rw [← hc]
  rfl

/-- A fetch of the client's own, with the loader, read from a client that has captured
nothing: the data of a success is captured; `403` signs out in memory and in the vault and
publishes `forbidden`; `404` and a success turn the loading flag off; nothing else the flows
answer for changes. -/
theorem fetched_capture (ht : t.listener = .capture) (hl : t.useLoader = true)
    (hc : c.captured = none) :
    (∃ st events, c.fetched t = { c.shows st [] events with captured := t.reply.fetchedData }) ∧
    (c.fetched t).seen =
      { c.seen with
        session := if t.reply.signsOut then ⟨""⟩ else c.store.state.session,
        vault := if t.reply.signsOut then (c.store.vault.remove sessionKey).1 else c.store.vault,
        loading := if t.reply.endsLoading then false else c.store.state.isLoading,
        events := c.log.events ++
          if t.reply.signsOut && c.subscribed then [.invalidated .forbidden] else [] } := by
  cases hr : t.reply with
  | failure msg =>
    rw [fetched_of_failure c t hr]
    refine ⟨⟨_, _, (shows_capture_none c hc _ _ _).symm⟩, ?_⟩
    rw [seen_shows]
    simp [seen, Reply.signsOut, Reply.endsLoading, Store.commit]
  | response r =>
    by_cases h403 : r.status = 403
    · rw [fetched_of_forbidden c t hr h403]
      have hs : r.isSuccess = false := by simp [Response.isSuccess, h403]
      refine ⟨⟨_, _, by simp only [Reply.fetchedData, hs]; exact (shows_capture_none c hc _ _ _).symm⟩, ?_⟩
      rw [seen_shows]
      simp [seen, Reply.signsOut, Reply.endsLoading, h403, hs]
    by_cases h404 : r.status = 404
    · rw [fetched_of_missing c t hr h404]
      have hs : r.isSuccess = false := by simp [Response.isSuccess, h404]
      refine ⟨⟨_, _, by simp only [Reply.fetchedData, hs]; exact (shows_capture_none c hc _ _ _).symm⟩, ?_⟩
      rw [seen_shows]
      simp [seen, Reply.signsOut, Reply.endsLoading, h404, hl, Store.doneLoading]
    cases hs : r.isSuccess with
    | false =>
      rw [fetched_of_refused c t hr h403 h404 hs]
      refine ⟨⟨c.store, [], ?_⟩, ?_⟩
      · simp only [Reply.fetchedData, hs, Bool.false_eq_true, ↓reduceIte]
        rw [shows_capture_none c hc, shows_self]
      · simp [seen, Reply.signsOut, Reply.endsLoading, h403, h404, hs]
    | true =>
      cases hj : r.json with
      | error e =>
        rw [fetched_of_unreadable c t hr hs hj]
        refine ⟨⟨c.store.doneLoading t.useLoader, [], ?_⟩, ?_⟩
        · simp only [Reply.fetchedData, hs, hj, Except.toOption]
          exact (shows_capture_none c hc _ _ _).symm
        · rw [seen_shows]
          simp [seen, Reply.signsOut, Reply.endsLoading, h403, hs, hl, Store.doneLoading]
      | ok data =>
        have hfetch : c.fetched t = { c.shows (c.store.doneLoading true) [] [] with
            captured := some data } := by
          simp [fetched, hr, hs, hj, h403, h404, ht, hl, loaderOff_eq_shows, shows]
        have hd : (Reply.response r).fetchedData = some data := by
          simp [Reply.fetchedData, hs, hj, Except.toOption]
        rw [hfetch, hd]
        refine ⟨⟨_, _, rfl⟩, ?_⟩
        simp [seen, shows, Reply.signsOut, Reply.endsLoading, h403, hs, Store.doneLoading]

/-- A submission of the client's own, with the loader, read from a client that has captured
nothing: the data of a success is captured unless it says that the user is not logged in,
which is published instead; a refusal whose body is a notice shows it as an alert, moving the
alert timer to the next generation; the loading flag goes off; nothing else the flows answer
for changes. -/
theorem submitted_capture (ht : t.listener = .capture) (hl : t.useLoader = true)
    (hc : c.captured = none) :
    (∃ st events, c.submitted t = { c.shows st [] events with captured := t.reply.acceptedData }) ∧
    (c.submitted t).seen =
      { c.seen with
        loading := false,
        events := c.log.events ++
          if t.reply.saysSignedOut && c.subscribed then [.invalidated .notLoggedIn] else [] } ∧
    (c.submitted t).store.timer.generation =
      if t.reply.showsNotice then c.store.timer.generation + 1 else c.store.timer.generation := by
  have hsub : c.submitted t = (c.answered t).shows ((c.answered t).store.doneLoading true) [] [] := by
    rw [submitted, ht, onFinally_capture, hl, loaderOff_eq_shows]
  -- every reading that captures nothing is one step shown, and the loader goes off after it
  have hform : ∀ st events, c.answered t = c.shows st [] events →
      c.submitted t = c.shows (st.doneLoading true) [] events := by
    intro st events h
    rw [hsub, h, shows_store, shows_shows]
    simp
  cases hr : t.reply with
  | failure msg =>
    have hsame := hform c.store [] (by rw [answered, hr, shows_self])
    rw [hsame]
    refine ⟨⟨_, _, (shows_capture_none c hc _ _ _).symm⟩, ?_, ?_⟩
    · rw [seen_shows]
      simp [seen, Reply.saysSignedOut, Store.doneLoading]
    · simp [Reply.showsNotice, Store.doneLoading]
  | response r =>
    cases hs : r.isSuccess with
    | false =>
      cases hn : Notice.read r.body with
      | ok n =>
        have halert := hform (c.store.commit c.now (.setAlert n.toAlert)) []
          (by simp [answered, hr, hs, hn, ht, commit_eq_shows])
        rw [halert]
        refine ⟨⟨_, _, by
          simp only [Reply.acceptedData, hs]
          exact (shows_capture_none c hc _ _ _).symm⟩, ?_, ?_⟩
        · rw [seen_shows]
          simp [seen, Reply.saysSignedOut, hs, Store.doneLoading, Store.commit]
        · simp [Reply.showsNotice, hs, hn, Store.doneLoading, Store.commit, AlertTimer.supersede,
            AlertTimer.arm, AlertTimer.cancel, Except.toBool]
      | error e =>
        have hsame := hform c.store [] (by simp [answered, hr, hs, hn, ht])
        rw [hsame]
        refine ⟨⟨_, _, by
          simp only [Reply.acceptedData, hs]
          exact (shows_capture_none c hc _ _ _).symm⟩, ?_, ?_⟩
        · rw [seen_shows]
          simp [seen, Reply.saysSignedOut, hs, Store.doneLoading]
        · simp [Reply.showsNotice, hs, hn, Store.doneLoading, Except.toBool]
    | true =>
      cases hd : submittedData r with
      | error e =>
        have hsame := hform c.store [] (by simp [answered, hr, hs, hd])
        rw [hsame]
        refine ⟨⟨_, _, by
          simp only [Reply.acceptedData, hs, hd]
          exact (shows_capture_none c hc _ _ _).symm⟩, ?_, ?_⟩
        · rw [seen_shows]
          simp [seen, Reply.saysSignedOut, hs, hd, Store.doneLoading]
        · simp [Reply.showsNotice, hs, Store.doneLoading]
      | ok data =>
        cases hout : saysNotLoggedIn data with
        | true =>
          have hpub := hform c.store (if c.subscribed then [.invalidated .notLoggedIn] else [])
            (by simp [answered, hr, hs, hd, hout, publish_eq_shows])
          rw [hpub]
          refine ⟨⟨_, _, by
            simp only [Reply.acceptedData, hs, hd, hout]
            exact (shows_capture_none c hc _ _ _).symm⟩, ?_, ?_⟩
          · rw [seen_shows]
            simp [seen, Reply.saysSignedOut, hs, hd, hout, Store.doneLoading]
          · simp [Reply.showsNotice, hs, Store.doneLoading]
        | false =>
          have hcap : c.submitted t = { c.shows (c.store.doneLoading true) [] [] with
              captured := some data } := by
            rw [hsub]
            simp [answered, hr, hs, hd, hout, ht, shows, Store.doneLoading]
          have hdata : (Reply.response r).acceptedData = some data := by
            simp [Reply.acceptedData, hs, hd, hout]
          rw [hcap, hdata]
          refine ⟨⟨_, _, rfl⟩, ?_, ?_⟩
          · simp [seen, shows, Reply.saysSignedOut, hs, hd, hout, Store.doneLoading]
          · simp [shows, Reply.showsNotice, hs, Store.doneLoading]

/-- A success callback leaves the store. -/
@[simp]
theorem onSuccess_store (data : Value) (l : Listener) : (c.onSuccess data l).store = c.store := by
  cases l with
  | record req success error final => cases success <;> rfl
  | capture => rfl

/-- A fetch changes the alert, the timer and the options only on a transport failure, which
shows the network alert at the client's time. -/
theorem fetched_alerting :
    (c.fetched t).store.alerting =
      if t.reply.failed then
        (c.store.commit c.now
          (.setAlert { kind := Alert.networkError, message := c.networkMessage })).alerting
      else c.store.alerting := by
  cases hr : t.reply with
  | failure msg =>
    rw [fetched_of_failure c t hr]
    rfl
  | response r =>
    unfold fetched
    rw [hr]
    simp only [Reply.failed, Bool.false_eq_true, ↓reduceIte]
    split_ifs
    · rw [publish_eq_shows, shows_store]
      exact Store.alerting_commit c.store c.now rfl
    · rw [loaderOff_eq_shows, shows_store, Store.alerting_doneLoading]
    · rfl
    · -- the success callback, if any, leaves the store; then the loader goes off
      rw [loaderOff_eq_shows, shows_store, Store.alerting_doneLoading]
      split
      · rw [onSuccess_store]
      · rfl

/-! ## A request of the client's own -/

/-- The task of a request the client listens to itself, with the loader: it carries the
script's next reply and is due when its delay ends. -/
def ownTask (c : Client) (style : Style) : InFlight :=
  { due := wakeAt c.now (Scripted.next c.script).1.delay, style,
    reply := (Scripted.next c.script).1.reply, listener := .capture, useLoader := true }

/-- The client when the reply to a request of its own arrives: the request logged, the loading
flag on, the script moved on, the clock at the reply's time and the clear due by then run. -/
def arrival (c : Client) (method : Method) (path token : String) (body : Body) : Client :=
  let due := wakeAt c.now (Scripted.next c.script).1.delay
  { c with
    store := (c.store.commit c.now (.setLoading true)).clearDue due, now := due,
    script := (Scripted.next c.script).2,
    log := { c.log with
      requests := c.log.requests ++ [{ method, url := c.url path, authorization := token, body }] },
    captured := none }

/-- The client once a request is over: the clear due at the reply's time has run and the
capture is emptied. -/
def finishOwn (c : Client) (start due : Nat) : Client :=
  { c with store := c.store.clearDue due, now := max start due, captured := none }

/-- On a client with nothing in flight, a request of its own completes alone: its reply is read
on the client as it stands when the reply arrives, and the data of a success comes back. -/
theorem fetchOwn_eq (hidle : c.pending = []) (style : Style) (method : Method)
    (path token : String) (body : Body) :
    c.fetchOwn style method path token body =
      let read := match style with
        | .fetch => (c.arrival method path token body).fetched (c.ownTask style)
        | .submit => (c.arrival method path token body).submitted (c.ownTask style)
      (read.finishOwn c.now (c.ownTask style).due, read.captured) := by
  unfold fetchOwn runUntil
  rw [issue_eq]
  cases style <;> simp [hidle, InFlight.schedule, url, complete, arrival, ownTask, finishOwn]

variable (method : Method) (path token : String) (body : Body)

/-- When the reply arrives, the request is logged and the loading flag is on; nothing else the flows
answer for has changed. -/
theorem arrival_seen :
    (c.arrival method path token body).seen =
      { c.seen with
        loading := true,
        requests := c.log.requests ++ [{ method, url := c.url path, authorization := token, body }] } := by
  obtain ⟨a, p, h⟩ := Store.clearDue_frame (wakeAt c.now (Scripted.next c.script).1.delay)
    (c.store.commit c.now (.setLoading true))
  simp only [arrival, seen, h]
  rfl

/-- The arrival of a reply keeps the generation of the alert timer. -/
theorem arrival_generation :
    (c.arrival method path token body).store.timer.generation = c.store.timer.generation :=
  Store.clearDue_generation _ (c.store.commit c.now (.setLoading true))

/-- Ending a request of one's own changes nothing the flows answer for. -/
theorem finishOwn_seen (start due : Nat) : (c.finishOwn start due).seen = c.seen := by
  obtain ⟨a, p, h⟩ := Store.clearDue_frame due c.store
  simp only [finishOwn, seen, h]

/-- Ending a request of one's own keeps the generation of the alert timer. -/
theorem finishOwn_generation (start due : Nat) :
    (c.finishOwn start due).store.timer.generation = c.store.timer.generation :=
  Store.clearDue_generation due c.store

/-- A fetch of the client's own, on a client with nothing in flight, sends its request once and
returns the data of a success. The session, the vault, the loading flag and the events are
what the reply to a fetch leaves. -/
theorem fetchOwn_fetch (hidle : c.pending = []) :
    let reply := (Scripted.next c.script).1.reply
    let out := c.fetchOwn .fetch method path token body
    out.2 = reply.fetchedData ∧
    out.1.seen =
      { c.seen with
        session := if reply.signsOut then ⟨""⟩ else c.store.state.session,
        vault := if reply.signsOut then (c.store.vault.remove sessionKey).1 else c.store.vault,
        loading := !reply.endsLoading,
        events := c.log.events ++
          if reply.signsOut && c.subscribed then [.invalidated .forbidden] else [],
        requests := c.log.requests ++ [{ method, url := c.url path, authorization := token, body }] } := by
  intro reply out
  obtain ⟨⟨st, events, hf⟩, hseen⟩ :=
    fetched_capture (c.arrival method path token body) (c.ownTask .fetch) rfl rfl rfl
  have harrived := arrival_seen c method path token body
  have hout : out = (((c.arrival method path token body).fetched (c.ownTask .fetch)).finishOwn
      c.now (c.ownTask .fetch).due, ((c.arrival method path token body).fetched (c.ownTask .fetch)).captured) :=
    fetchOwn_eq c hidle .fetch method path token body
  refine ⟨by rw [hout, hf]; rfl, ?_⟩
  rw [hout, finishOwn_seen, hseen, harrived]
  -- the arrival keeps the session and the vault, and has the loader on
  have hsession := congrArg Seen.session harrived
  have hvault := congrArg Seen.vault harrived
  have hloading := congrArg Seen.loading harrived
  simp only [seen] at hsession hvault hloading
  have hreply : (c.ownTask .fetch).reply = reply := rfl
  simp only [hsession, hvault, hloading, hreply]
  cases reply.endsLoading <;> rfl

/-- A submission of the client's own, on a client with nothing in flight, sends its request once
and returns the data of a success that does not say the user is signed out. Only the loading
flag, which goes off, and the events change in what the flows answer for; the alert timer
moves to the next generation exactly when a refusal shows its notice. The client is left with
nothing in flight, the script moved on, and the same server and listener. -/
theorem fetchOwn_submit (hidle : c.pending = []) :
    let reply := (Scripted.next c.script).1.reply
    let out := c.fetchOwn .submit method path token body
    out.2 = reply.acceptedData ∧
    out.1.seen =
      { c.seen with
        loading := false,
        events := c.log.events ++
          if reply.saysSignedOut && c.subscribed then [.invalidated .notLoggedIn] else [],
        requests := c.log.requests ++ [{ method, url := c.url path, authorization := token, body }] } ∧
    out.1.store.timer.generation =
      (if reply.showsNotice then c.store.timer.generation + 1 else c.store.timer.generation) ∧
    out.1.pending = [] ∧ out.1.script = (Scripted.next c.script).2 ∧ out.1.baseUrl = c.baseUrl ∧
    out.1.subscribed = c.subscribed := by
  intro reply out
  obtain ⟨⟨st, events, hf⟩, hseen, hgen⟩ :=
    submitted_capture (c.arrival method path token body) (c.ownTask .submit) rfl rfl rfl
  have hout : out = (((c.arrival method path token body).submitted (c.ownTask .submit)).finishOwn
      c.now (c.ownTask .submit).due,
      ((c.arrival method path token body).submitted (c.ownTask .submit)).captured) :=
    fetchOwn_eq c hidle .submit method path token body
  rw [hout]
  refine ⟨by rw [hf]; rfl, ?_, ?_, ?_⟩
  · rw [finishOwn_seen, hseen, arrival_seen]
    rfl
  · rw [finishOwn_generation, hgen, arrival_generation]
    rfl
  · rw [hf]
    exact ⟨hidle, rfl, rfl, rfl⟩

/-- A fetch of the client's own, on a client with nothing in flight, leaves the alert, the timer
and the options as the clear due when the reply arrives leaves them; a transport failure sets
the network alert at that time instead, and the clear due then runs once more. -/
theorem fetchOwn_alerting (hidle : c.pending = []) :
    let due := wakeAt c.now (Scripted.next c.script).1.delay
    let net : Alert := { kind := Alert.networkError, message := c.networkMessage }
    (c.fetchOwn .fetch method path token body).1.store.alerting =
      if (Scripted.next c.script).1.reply.failed then
        (((c.store.clearDue due).commit due (.setAlert net)).clearDue due).alerting
      else (c.store.clearDue due).alerting := by
  intro due net
  rw [fetchOwn_eq c hidle]
  -- the reply is read on the client as it stands when it arrives, whose store agrees with
  -- `c.store.clearDue due` on the alert
  let arrived := c.arrival method path token body
  have harrived : arrived.store.alerting = (c.store.clearDue due).alerting :=
    Store.alerting_clearDue (Store.alerting_commit c.store c.now rfl) due
  have hread := fetched_alerting arrived (c.ownTask .fetch)
  have hreply : (c.ownTask .fetch).reply = (Scripted.next c.script).1.reply := rfl
  have hnow : arrived.now = due := rfl
  have hmsg : arrived.networkMessage = c.networkMessage := rfl
  have hstore : arrived.store = (c.store.commit c.now (.setLoading true)).clearDue due := rfl
  rw [hreply, hnow, hmsg] at hread
  show ((arrived.fetched (c.ownTask .fetch)).store.clearDue due).alerting = _
  split_ifs at hread ⊢
  · calc _ = ((arrived.store.commit due (.setAlert net)).clearDue due).alerting :=
          Store.alerting_clearDue hread due
      _ = _ := Store.alerting_clearDue (Store.alerting_setAlert harrived due net) due
  · calc _ = (arrived.store.clearDue due).alerting := Store.alerting_clearDue hread due
      _ = arrived.store.alerting := by rw [hstore, Store.clearDue_clearDue]
      _ = _ := harrived

/-! ## Loading the signed-in user -/

/-- On a client with nothing in flight, loading the user sends one `GET` of `/user/me` with the
session's token. It returns the profile the data of a success reads as, once unwrapped, and
keeps it as the signed-in user; otherwise the user stays. The session, the vault, the loading
flag and the events are what the reply to a fetch leaves. -/
theorem loadCurrentUser_eq (hidle : c.pending = []) :
    let reply := (Scripted.next c.script).1.reply
    c.loadCurrentUser.2 = reply.fetchedData.bind (fun d => (Profile.ofValue (unwrapData d)).toOption) ∧
    c.loadCurrentUser.1.seen =
      { c.seen with
        session := if reply.signsOut then ⟨""⟩ else c.store.state.session,
        vault := if reply.signsOut then (c.store.vault.remove sessionKey).1 else c.store.vault,
        user := c.loadCurrentUser.2.getD c.store.state.currentUser,
        loading := !reply.endsLoading,
        events := c.log.events ++
          if reply.signsOut && c.subscribed then [.invalidated .forbidden] else [],
        requests := c.log.requests ++ [{ method := Method.get, url := c.url Route.userMe,
                                         authorization := c.store.accessToken, body := .empty }] } := by
  intro reply
  obtain ⟨hdata, hseen⟩ := fetchOwn_fetch c Method.get Route.userMe c.store.accessToken .empty hidle
  unfold loadCurrentUser
  generalize c.fetchOwn .fetch Method.get Route.userMe c.store.accessToken .empty = out at hdata hseen
  obtain ⟨done, data⟩ := out
  dsimp only at hdata hseen ⊢
  subst hdata
  cases (Scripted.next c.script).1.reply.fetchedData with
  | none => exact ⟨rfl, hseen⟩
  | some d =>
    dsimp only
    cases hp : Profile.ofValue (unwrapData d) with
    | error e => exact ⟨by simp [hp, Except.toOption], hseen⟩
    | ok p =>
      refine ⟨by simp [hp, Except.toOption], ?_⟩
      rw [commit_setCurrentUser_seen, hseen]
      rfl

/-- Keeping the loaded user leaves the alert, the timer and the options as the fetch left
them. -/
theorem loadCurrentUser_alerting :
    c.loadCurrentUser.1.store.alerting =
      (c.fetchOwn .fetch Method.get Route.userMe c.store.accessToken .empty).1.store.alerting := by
  unfold loadCurrentUser
  generalize c.fetchOwn .fetch Method.get Route.userMe c.store.accessToken .empty = out
  obtain ⟨done, data⟩ := out
  cases data with
  | none => rfl
  | some d =>
    dsimp only
    cases Profile.ofValue (unwrapData d) with
    | ok p => exact Store.alerting_commit done.store done.now rfl
    | error e => rfl

/-- Loading the user on a client with nothing in flight leaves the alert and its timer as the
clear due when the reply arrives leaves them, unless the reply is a transport failure. Then
the network alert is shown, for the next generation, with its clear pending until the delay
ends after the reply; with no delay it is cleared at once. -/
theorem loadCurrentUser_alert (hidle : c.pending = []) :
    let reply := (Scripted.next c.script).1.reply
    let due := wakeAt c.now (Scripted.next c.script).1.delay
    let net : Alert := { kind := Alert.networkError, message := c.networkMessage }
    let delay := c.store.options.clearDelay
    c.loadCurrentUser.1.store.state.alert =
      (if reply.failed then
        if delay = 0 then net.cleared c.store.options.clearPolicy else net
      else (c.store.clearDue due).state.alert) ∧
    c.loadCurrentUser.1.store.timer =
      (if reply.failed then
        { generation := c.store.timer.generation + 1,
          pending := if delay = 0 then none
            else some ⟨c.store.timer.generation + 1, wakeAt due delay⟩ }
      else (c.store.clearDue due).timer) := by
  dsimp only
  have h := (loadCurrentUser_alerting c).trans (fetchOwn_alerting c _ _ _ _ hidle)
  by_cases hf : (Scripted.next c.script).1.reply.failed = true
  · -- the network alert is set when the reply arrives, and the clear due then runs
    rw [if_pos hf, Store.clearDue_setAlert, Store.clearDue_options,
      Store.clearDue_generation] at h
    simp only [Store.alerting, Prod.mk.injEq] at h
    simp only [if_pos hf]
    exact ⟨h.1, h.2.1⟩
  · rw [if_neg hf] at h
    simp only [Store.alerting, Prod.mk.injEq] at h
    simp only [if_neg hf]
    exact ⟨h.1, h.2.1⟩

end Client

/-! ## Starting -/

/-- Starting a client with nothing in flight. Unless its vault holds, under the session key,
the text of a session with a token, it sends nothing, only stops loading, and returns
nothing. Otherwise it restores that session, without writing the vault, and loads its user:
one `GET` of `/user/me` carrying the restored token, which returns the profile the data of a
success reads as, once unwrapped, and keeps it as the signed-in user. The session, the vault,
the loading flag, the events and the alert are then what the reply to a fetch leaves: `403`
signs out in memory and in the vault and publishes `forbidden`, `404` and a success stop
loading, and a transport failure shows the network alert, for the next generation of the
timer, with its clear pending until the delay ends after the reply (with no delay it is
cleared at once). Any other reply leaves the alert and the timer as the clear due by the
reply's time leaves them. -/
theorem start_contract (c : Client) (hidle : c.pending = []) :
    ((¬∃ raw s, c.store.vault.get sessionKey = .ok (some raw) ∧ Session.readText raw = .ok s ∧
        s.isAuthenticated = true) →
      c.start = (c.commit (.setLoading false), none)) ∧
    ∀ raw s, c.store.vault.get sessionKey = .ok (some raw) → Session.readText raw = .ok s →
      s.isAuthenticated = true →
      let reply := (Scripted.next c.script).1.reply
      let due := wakeAt c.now (Scripted.next c.script).1.delay
      let net : Alert := { kind := "network-error", message := c.networkMessage, requestId := none }
      let delay := c.store.options.clearDelay
      c.start.2 = reply.fetchedData.bind (fun d => (Profile.ofValue (unwrapData d)).toOption) ∧
      c.start.1.seen =
        { c.seen with
          session := if reply.signsOut then ⟨""⟩ else s,
          vault := if reply.signsOut then (c.store.vault.remove sessionKey).1 else c.store.vault,
          user := c.start.2.getD c.store.state.currentUser,
          loading := !reply.endsLoading,
          events := c.log.events ++
            if reply.signsOut && c.subscribed then [.invalidated .forbidden] else [],
          requests := c.log.requests ++ [{ method := Method.get, url := c.baseUrl ++ Route.userMe,
                                           authorization := s.accessToken, body := .empty }] } ∧
      c.start.1.store.state.alert =
        (if reply.failed then
          if delay = 0 then net.cleared c.store.options.clearPolicy else net
        else (c.store.clearDue due).state.alert) ∧
      c.start.1.store.timer =
        (if reply.failed then
          { generation := c.store.timer.generation + 1,
            pending := if delay = 0 then none
              else some ⟨c.store.timer.generation + 1, wakeAt due delay⟩ }
        else (c.store.clearDue due).timer) := by
  have hurl : c.url Route.userMe = c.baseUrl ++ Route.userMe := c.url_of_absolute (by decide +kernel)
  constructor
  · intro hno
    unfold Client.start
    rw [Store.restoreSession_of_no_session hno]
  · intro raw s hget hread hauth
    -- the restored client: only the session in memory differs
    let restored : Client := { c with store := c.store.commit 0 (.restoreSession s) }
    have hstart : c.start = restored.loadCurrentUser := by
      unfold Client.start
      rw [Store.restoreSession_of_session hget hread hauth]
    -- the clear due by the reply's time reads nothing that restoring the session changed
    have hcleared := Store.alerting_clearDue
      (Store.alerting_commit c.store 0 (m := .restoreSession s) rfl)
      (wakeAt c.now (Scripted.next c.script).1.delay)
    simp only [Store.alerting, Prod.mk.injEq] at hcleared
    obtain ⟨hdata, hseen⟩ := Client.loadCurrentUser_eq restored hidle
    obtain ⟨halert, htimer⟩ := Client.loadCurrentUser_alert restored hidle
    rw [hstart, ← hurl]
    exact ⟨hdata, hseen, halert.trans (by rw [hcleared.1]; rfl), htimer.trans (by rw [hcleared.2.1]; rfl)⟩

/-- A fresh client whose memory vault holds the session `tok` restores it on starting and asks
for its user with that token. -/
theorem start_restores_stored_session :
    let s : Session := ⟨"tok"⟩
    let c := Client.create (Store.create ⟨.memory [(sessionKey, s.toValue.compact)], {}⟩ {})
      "http://api.test" "down" [] true
    c.pending = [] ∧ c.store.vault.get sessionKey = .ok (some s.toValue.compact) ∧
      Session.readText s.toValue.compact = .ok s ∧ s.isAuthenticated = true ∧
      let reply := (Scripted.next c.script).1.reply
      let due := wakeAt c.now (Scripted.next c.script).1.delay
      let net : Alert := { kind := "network-error", message := c.networkMessage, requestId := none }
      let delay := c.store.options.clearDelay
      c.start.2 = reply.fetchedData.bind (fun d => (Profile.ofValue (unwrapData d)).toOption) ∧
      c.start.1.seen =
        { c.seen with
          session := if reply.signsOut then ⟨""⟩ else s,
          vault := if reply.signsOut then (c.store.vault.remove sessionKey).1 else c.store.vault,
          user := c.start.2.getD c.store.state.currentUser,
          loading := !reply.endsLoading,
          events := c.log.events ++
            if reply.signsOut && c.subscribed then [.invalidated .forbidden] else [],
          requests := c.log.requests ++ [{ method := Method.get, url := c.baseUrl ++ Route.userMe,
                                           authorization := s.accessToken, body := .empty }] } ∧
      c.start.1.store.state.alert =
        (if reply.failed then
          if delay = 0 then net.cleared c.store.options.clearPolicy else net
        else (c.store.clearDue due).state.alert) ∧
      c.start.1.store.timer =
        (if reply.failed then
          { generation := c.store.timer.generation + 1,
            pending := if delay = 0 then none
              else some ⟨c.store.timer.generation + 1, wakeAt due delay⟩ }
        else (c.store.clearDue due).timer) := by
  intro s c
  have hget : c.store.vault.get sessionKey = .ok (some s.toValue.compact) := by
    simp [c, Client.create, Store.create, Vault.get]
  have hauth : s.isAuthenticated = true := by decide
  exact ⟨rfl, hget, Session.readText_compact s, hauth,
    (start_contract c rfl).2 _ s hget (Session.readText_compact s) hauth⟩

/-! ## Signing in -/

/-- Signing in on a client with nothing in flight sends one `POST` of `/auth/login` with no
token and the login and password as a JSON object. It returns a session exactly when the reply
is a success whose body is JSON that does not say the user is not logged in, and whose data,
once unwrapped, reads as a session with a token. Without one, the session, the vault and the
signed-in user stay as they were: only the loading flag goes off, a `notLoggedIn` event may be
published, and the alert timer moves on exactly when a refusal shows its notice. With one, the
session is set and written to the vault as `{"access_token": token}`, and its user is loaded as
on starting, with the next reply: `403` then signs out again, in memory and in the vault. -/
theorem login_contract (c : Client) (hidle : c.pending = []) (name password : String) :
    let reply := (Scripted.next c.script).1.reply
    let request : Request :=
      { method := Method.post, url := c.baseUrl ++ Route.authLogin, authorization := "",
        body := Client.loginBody name password }
    (∀ s, (c.login name password).2 = some s ↔
      ∃ r data, reply = .response r ∧ r.isSuccess = true ∧ r.json = .ok data ∧
        saysNotLoggedIn data = false ∧ Session.ofValue (unwrapData data) = .ok s ∧
        s.isAuthenticated = true) ∧
    ((c.login name password).2 = none →
      (c.login name password).1.seen =
        { c.seen with
          loading := false,
          events := c.log.events ++
            if reply.saysSignedOut && c.subscribed then [.invalidated .notLoggedIn] else [],
          requests := c.log.requests ++ [request] } ∧
      (c.login name password).1.store.timer.generation =
        if reply.showsNotice then c.store.timer.generation + 1 else c.store.timer.generation) ∧
    ∀ s, (c.login name password).2 = some s →
      let reply' := (Scripted.next (Scripted.next c.script).2).1.reply
      let stored := (c.store.vault.set sessionKey s.toValue.compact).1
      (c.login name password).1.seen =
        { c.seen with
          session := if reply'.signsOut then ⟨""⟩ else s,
          vault := if reply'.signsOut then (stored.remove sessionKey).1 else stored,
          user := (reply'.fetchedData.bind fun d =>
            (Profile.ofValue (unwrapData d)).toOption).getD c.store.state.currentUser,
          loading := !reply'.endsLoading,
          events := c.log.events ++
            if reply'.signsOut && c.subscribed then [.invalidated .forbidden] else [],
          requests := c.log.requests ++
            [request, { method := Method.get, url := c.baseUrl ++ Route.userMe,
                        authorization := s.accessToken, body := .empty }] } := by
  intro reply request
  obtain ⟨hdata, hseen, hgen, hpending, hscript, hbase, hsubscribed⟩ :=
    Client.fetchOwn_submit c Method.post Route.authLogin "" (Client.loginBody name password) hidle
  rw [c.url_of_absolute (by decide +kernel)] at hseen
  -- the result is read off the accepted data; the client is the one the request left, or that
  -- one with the session set and its user loaded
  have hlogin : c.login name password =
      (reply.acceptedData.bind fun d =>
          ((Session.ofValue (unwrapData d)).toOption).filter (·.isAuthenticated)).elim
        ((c.fetchOwn .submit Method.post Route.authLogin "" (Client.loginBody name password)).1,
          none)
        fun s => ((((c.fetchOwn .submit Method.post Route.authLogin ""
          (Client.loginBody name password)).1.commit (.setSession s)).loadCurrentUser).1, some s) := by
    unfold Client.login
    rw [← hdata]
    generalize (c.fetchOwn .submit Method.post Route.authLogin "" (Client.loginBody name password)) = out
    obtain ⟨sent, data⟩ := out
    cases data with
    | none => rfl
    | some d =>
      dsimp only
      cases hv : Session.ofValue (unwrapData d) with
      | error e => simp [hv, Except.toOption]
      | ok s => cases hauth : s.isAuthenticated <;> simp [hv, Except.toOption, hauth, Option.filter_some]
  generalize hsent : (c.fetchOwn .submit Method.post Route.authLogin "" (Client.loginBody name password)).1
    = sent at hlogin hseen hgen hpending hscript hbase hsubscribed
  rw [hlogin]
  refine ⟨fun s => ?_, fun hnone => ?_, fun s hsome => ?_⟩
  · rw [← Reply.acceptedSession_iff]
    cases reply.acceptedData.bind fun d =>
        ((Session.ofValue (unwrapData d)).toOption).filter (·.isAuthenticated) <;> simp
  · revert hnone
    cases reply.acceptedData.bind fun d =>
        ((Session.ofValue (unwrapData d)).toOption).filter (·.isAuthenticated) with
    | none => exact fun _ => ⟨hseen, hgen⟩
    | some s' => intro h; cases h
  · revert hsome
    cases hacc : reply.acceptedData.bind fun d =>
        ((Session.ofValue (unwrapData d)).toOption).filter (·.isAuthenticated) with
    | none => intro h; cases h
    | some s' =>
      intro h
      cases h
      -- the login request was accepted, so it published nothing
      obtain ⟨d, hd, -⟩ := Option.bind_eq_some_iff.mp hacc
      have hquiet : (Scripted.next c.script).1.reply.saysSignedOut = false :=
        Reply.saysSignedOut_of_acceptedData hd
      have hvault : sent.store.vault = c.store.vault := congrArg Seen.vault hseen
      have huser : sent.store.state.currentUser = c.store.state.currentUser := congrArg Seen.user hseen
      have hevents : sent.log.events = c.log.events := by
        simpa [hquiet, Client.seen] using congrArg Seen.events hseen
      have hcalls : sent.log.calls = c.log.calls := congrArg Seen.calls hseen
      have hrequests : sent.log.requests = c.log.requests ++ [request] :=
        congrArg Seen.requests hseen
      have hurl : (sent.commit (.setSession s)).url Route.userMe = c.baseUrl ++ Route.userMe := by
        rw [Client.url_of_absolute _ (by decide +kernel)]
        simp only [Client.commit, hbase]
      -- then the user is loaded on the client with the session set
      obtain ⟨hres, hload⟩ := Client.loadCurrentUser_eq (sent.commit (.setSession s)) hpending
      rw [Option.elim_some, hload, hres, hurl]
      simp only [Client.commit, Client.seen, Store.commit, hscript,
        hvault, huser, hevents, hcalls, hrequests, hsubscribed, Store.accessToken, List.append_assoc,
        List.singleton_append]


/-- A fresh client signing in as `ann` with the password `pw`, against a server with nothing
scripted. -/
theorem login_contract_fresh_client :
    let c := Client.create (Store.create ⟨.memory [], {}⟩ {}) "http://api.test" "down" [] true
    c.pending = [] ∧
    let reply := (Scripted.next c.script).1.reply
    let request : Request :=
      { method := Method.post, url := c.baseUrl ++ Route.authLogin, authorization := "",
        body := Client.loginBody "ann" "pw" }
    (∀ s, (c.login "ann" "pw").2 = some s ↔
      ∃ r data, reply = .response r ∧ r.isSuccess = true ∧ r.json = .ok data ∧
        saysNotLoggedIn data = false ∧ Session.ofValue (unwrapData data) = .ok s ∧
        s.isAuthenticated = true) ∧
    ((c.login "ann" "pw").2 = none →
      (c.login "ann" "pw").1.seen =
        { c.seen with
          loading := false,
          events := c.log.events ++
            if reply.saysSignedOut && c.subscribed then [.invalidated .notLoggedIn] else [],
          requests := c.log.requests ++ [request] } ∧
      (c.login "ann" "pw").1.store.timer.generation =
        if reply.showsNotice then c.store.timer.generation + 1 else c.store.timer.generation) ∧
    ∀ s, (c.login "ann" "pw").2 = some s →
      let reply' := (Scripted.next (Scripted.next c.script).2).1.reply
      let stored := (c.store.vault.set sessionKey s.toValue.compact).1
      (c.login "ann" "pw").1.seen =
        { c.seen with
          session := if reply'.signsOut then ⟨""⟩ else s,
          vault := if reply'.signsOut then (stored.remove sessionKey).1 else stored,
          user := (reply'.fetchedData.bind fun d =>
            (Profile.ofValue (unwrapData d)).toOption).getD c.store.state.currentUser,
          loading := !reply'.endsLoading,
          events := c.log.events ++
            if reply'.signsOut && c.subscribed then [.invalidated .forbidden] else [],
          requests := c.log.requests ++
            [request, { method := Method.get, url := c.baseUrl ++ Route.userMe,
                        authorization := s.accessToken, body := .empty }] } := by
  intro c
  exact ⟨rfl, login_contract c rfl "ann" "pw"⟩

end FeedClient
