import FeedClient.Store

/-!
# When an alert is cleared

A run of the store is a list of events: commits of any mutations, in the order the store's
lock grants them, and wakeups of the alert clear task. Wakeups at any times may stand
anywhere in the run: a task whose sleep has not ended, or whose handle was dropped because a
newer alert superseded it, changes nothing.

After an alert is set, the store is `Armed`: it shows the alert and the clear task of the
current generation is pending, due when the timer of the clear delay ends. The first wakeup
at or after that moment clears the alert; the store is then `Quiet`: it shows the cleared
alert and nothing is pending, and stays so until the next alert. Other mutations touch
neither the alert nor the timer, so they neither delay nor cancel the clear. Nothing of the
run before the last alert matters, however the generation has wrapped around.

The delay is a timer's: a delay past `longestWait` (thirty years) ends at that bound, so an
alert can be cleared before the configured delay has passed.

Main results:

- Theorem `alert_follows_last_setAlert`: before any alert is set the alert is the default
  one; after the last alert set, it is that alert until a wakeup at or after its deadline,
  and cleared from then on, with the pending clear task exactly while it is not cleared.
- Theorem `alert_cleared_before_long_delay`: with a delay of `10 ^ 15` milliseconds, a
  wakeup thirty years after the alert already clears it.
-/

namespace FeedClient

/-- One thing that happens to the store in a run. -/
inductive StoreEvent where
  /-- A mutation committed at `time`. -/
  | commit (time : Nat) (m : Mutation)
  /-- A clear task wakes at `time` and takes the store. -/
  | wake (time : Nat)

namespace StoreEvent

/-- What an event does to the store. -/
def apply (st : Store) : StoreEvent → Store
  | .commit t m => st.commit t m
  | .wake t => st.clearDue t

/-- Whether the event sets an alert. -/
def setsAlert : StoreEvent → Bool
  | .commit _ (.setAlert _) => true
  | _ => false

/-- Whether the event is a wakeup at or after time `w`. -/
def wakesBy (w : Nat) : StoreEvent → Bool
  | .wake t => w ≤ t
  | _ => false

end StoreEvent

namespace Store

/-- The store after the events of a run, in order. -/
def replay (st : Store) (es : List StoreEvent) : Store := es.foldl StoreEvent.apply st

/-- A run of no events leaves the store. -/
@[simp]
theorem replay_nil (st : Store) : st.replay [] = st := rfl

/-- A run goes event by event. -/
@[simp]
theorem replay_cons (st : Store) (e : StoreEvent) (es : List StoreEvent) :
    st.replay (e :: es) = (e.apply st).replay es := rfl

/-- Two runs one after the other are one run. -/
theorem replay_append (st : Store) (es es' : List StoreEvent) :
    st.replay (es ++ es') = (st.replay es).replay es' := by
  simp [replay, List.foldl_append]

/-- The store shows `x` and no clear is pending. -/
def Quiet (st : Store) (x : Alert) : Prop := st.state.alert = x ∧ st.timer.pending = none

/-- The store shows `a`, and the clear task of the current generation is pending, due at `w`. -/
def Armed (st : Store) (a : Alert) (w : Nat) : Prop :=
  st.state.alert = a ∧ st.timer.pending = some ⟨st.timer.generation, w⟩

/-! ## One event -/

/-- A commit of anything but an alert leaves the alert, the timer and the options alone. -/
theorem commit_of_not_setAlert (st : Store) (t : Nat) (m : Mutation)
    (hm : (StoreEvent.commit t m).setsAlert = false) :
    (st.commit t m).state.alert = st.state.alert ∧ (st.commit t m).timer = st.timer ∧
      (st.commit t m).options = st.options := by
  cases m with
  | setAlert a => simp [StoreEvent.setsAlert] at hm
  | _ => exact ⟨rfl, rfl, rfl⟩

/-- Setting an alert arms its clear, for the next generation, whatever was pending. -/
theorem armed_setAlert (st : Store) (t : Nat) (a : Alert) :
    Armed (st.commit t (.setAlert a)) a (wakeAt t st.options.clearDelay) :=
  ⟨rfl, rfl⟩

/-- No event changes the options. -/
@[simp]
theorem apply_options (st : Store) (e : StoreEvent) : (e.apply st).options = st.options := by
  cases e with
  | commit t m => cases m <;> rfl
  | wake t =>
    simp only [StoreEvent.apply, clearDue, runClear]
    split
    · split
      · split <;> rfl
      · rfl
    · rfl

/-- A quiet store stays quiet under every event but an alert. -/
theorem quiet_apply {st : Store} {x : Alert} (h : Quiet st x) (e : StoreEvent)
    (he : e.setsAlert = false) : Quiet (e.apply st) x := by
  cases e with
  | commit t m =>
    obtain ⟨halert, htimer, -⟩ := commit_of_not_setAlert st t m he
    exact ⟨halert.trans h.1, by rw [StoreEvent.apply, htimer]; exact h.2⟩
  | wake t =>
    rw [StoreEvent.apply, clearDue_none t st h.2]
    exact h

/-- In an armed store, a wakeup at or after the deadline clears the alert and drops the
handle; every other event but an alert keeps it armed. -/
theorem armed_apply {st : Store} {a : Alert} {w : Nat} (h : Armed st a w) (e : StoreEvent)
    (he : e.setsAlert = false) :
    if e.wakesBy w then Quiet (e.apply st) (a.cleared st.options.clearPolicy)
    else Armed (e.apply st) a w := by
  cases e with
  | commit t m =>
    obtain ⟨halert, htimer, -⟩ := commit_of_not_setAlert st t m he
    simp only [StoreEvent.wakesBy, Bool.false_eq_true, ↓reduceIte]
    exact ⟨halert.trans h.1, by rw [StoreEvent.apply, htimer]; exact h.2⟩
  | wake t =>
    simp only [StoreEvent.wakesBy, decide_eq_true_eq]
    split
    · rename_i hw
      -- the pending task is the current one, so its check passes
      have hrun : st.clearDue t = st.runClear st.timer.generation := by
        simp [clearDue, h.2, hw]
      refine ⟨?_, ?_⟩
      · simp [StoreEvent.apply, hrun, runClear, AlertTimer.isCurrent, h.1]
      · simp [StoreEvent.apply, hrun, runClear, AlertTimer.isCurrent, AlertTimer.finish]
    · rename_i hw
      rw [StoreEvent.apply, clearDue_of_lt t _ st h.2 (Nat.lt_of_not_le hw)]
      exact h

/-! ## A run -/

/-- A quiet store stays quiet through a run that sets no alert. -/
theorem quiet_replay {st : Store} {x : Alert} (h : Quiet st x) (es : List StoreEvent)
    (hes : ∀ e ∈ es, e.setsAlert = false) : Quiet (st.replay es) x := by
  induction es generalizing st with
  | nil => exact h
  | cons e es ih =>
    rw [replay_cons]
    exact ih (quiet_apply h e (hes e (by simp))) (fun e' he' => hes e' (by simp [he']))

/-- Through a run that sets no alert, an armed store stays armed until the first wakeup at or
after the deadline, and is quiet, with the alert cleared, from then on. -/
theorem armed_replay {st : Store} {a : Alert} {w : Nat} (h : Armed st a w) (es : List StoreEvent)
    (hes : ∀ e ∈ es, e.setsAlert = false) :
    if es.any (·.wakesBy w) then Quiet (st.replay es) (a.cleared st.options.clearPolicy)
    else Armed (st.replay es) a w := by
  induction es generalizing st with
  | nil => exact h
  | cons e es ih =>
    have hrest : ∀ e' ∈ es, e'.setsAlert = false := fun e' he' => hes e' (by simp [he'])
    have hstep := armed_apply h e (hes e (by simp))
    rw [replay_cons]
    by_cases hw : e.wakesBy w = true
    · -- the wakeup clears the alert; the rest of the run keeps the store quiet
      rw [if_pos hw] at hstep
      have hquiet := quiet_replay hstep es hrest
      simpa [hw] using hquiet
    · rw [if_neg hw] at hstep
      have hnext := ih hstep hrest
      simpa [hw] using hnext

/-! ## The alert over a whole run -/

/-- Before any alert is set the store shows the default alert with no clear pending; after the
last alert `a` set at time `t`, whatever happened before, the store shows `a` with its clear
task pending until a wakeup at or after `wakeAt t` of the delay, and from that wakeup on `a`
cleared as the policy says, with nothing pending. -/
theorem alert_follows_last_setAlert (v : Vault) (o : StoreOptions) :
    (∀ es : List StoreEvent, (∀ e ∈ es, e.setsAlert = false) →
      ((create v o).replay es).state.alert = {} ∧ ((create v o).replay es).timer.pending = none) ∧
    (∀ (before : List StoreEvent) (t : Nat) (a : Alert) (after : List StoreEvent),
      (∀ e ∈ after, e.setsAlert = false) →
      let w := wakeAt t o.clearDelay
      let st := (create v o).replay (before ++ .commit t (.setAlert a) :: after)
      st.state.alert = (if after.any (·.wakesBy w) then a.cleared o.clearPolicy else a) ∧
      st.timer.pending =
        (if after.any (·.wakesBy w) then none else some ⟨st.timer.generation, w⟩)) := by
  refine ⟨fun es hes => quiet_replay ⟨rfl, rfl⟩ es hes, ?_⟩
  intro before t a after hafter w st
  -- the options, hence the delay and the policy, never change along a run
  have hopts : ∀ (s : Store) (es : List StoreEvent), (s.replay es).options = s.options := by
    intro s es
    induction es generalizing s with
    | nil => rfl
    | cons e es ih => rw [replay_cons, ih, apply_options]
  let armedAt := ((create v o).replay before).commit t (.setAlert a)
  have harmed : Armed armedAt a w := by
    have h := armed_setAlert ((create v o).replay before) t a
    rwa [hopts] at h
  have hst : st = armedAt.replay after := by
    simp [st, armedAt, replay_append, StoreEvent.apply]
  have hpolicy : armedAt.options.clearPolicy = o.clearPolicy := by
    simp [armedAt, Store.commit, hopts, create]
  have hrun := armed_replay harmed after hafter
  rw [hpolicy, ← hst] at hrun
  by_cases hw : after.any (·.wakesBy w) = true
  · rw [if_pos hw] at hrun
    simp only [hw, ↓reduceIte]
    exact hrun
  · rw [if_neg hw] at hrun
    simp only [hw, Bool.false_eq_true, ↓reduceIte]
    exact hrun

/-- A second alert set 3000 ms after a first one, under the default options: the first
alert's task waking at 5000 ms leaves the second alert alone, a commit of the loading flag
changes nothing, and the wakeup at 8000 ms clears it. -/
theorem newer_alert_outlives_older_clear :
    let v : Vault := ⟨.memory [], {}⟩
    let o : StoreOptions := {}
    let before := [StoreEvent.commit 0 (.setAlert { kind := "first", message := "one" })]
    let a : Alert := { kind := "second", message := "two" }
    let after := [StoreEvent.wake 5000, .commit 5200 (.setLoading false), .wake 8000]
    (∀ e ∈ after, e.setsAlert = false) ∧
      ((create v o).replay (before ++ .commit 3000 (.setAlert a) :: after)).state.alert =
        a.cleared o.clearPolicy := by
  intro v o before a after
  have hno : ∀ e ∈ after, e.setsAlert = false := by decide
  obtain ⟨-, hlast⟩ := alert_follows_last_setAlert v o
  refine ⟨hno, ?_⟩
  rw [(hlast before 3000 a after hno).1]
  decide

/-- A delay of `10 ^ 15` milliseconds: the alert set at time 0 is already cleared by the
wakeup thirty years later, long before the delay has passed. -/
theorem alert_cleared_before_long_delay :
    let o : StoreOptions := { clearDelay := 1000000000000000 }
    let a : Alert := { kind := "t", message := "m" }
    let st := (create ⟨.memory [], {}⟩ o).replay [.commit 0 (.setAlert a), .wake 946080000000]
    946080000000 < 0 + o.clearDelay ∧ st.state.alert ≠ a := by
  decide

end Store

end FeedClient
