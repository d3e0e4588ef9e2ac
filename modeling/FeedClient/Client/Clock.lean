import FeedClient.Client.Exchange

/-!
# The clock

Time moves only when asked. `Client.runUntil t` moves the clock to `t`: every request due by
then completes, in the order of the pending list (by due time, and at one time by issue), and
before each one the alert clear fires if its deadline has come. Last, a clear due by `t` fires.

Completions issue no requests, so one pass over the due requests is the whole run: no fuel
and no measure are needed. A completion can arm a new clear, but never before its own time,
and the check before the next completion or at the end catches it.

`settle` runs what is due without moving the clock, `advance` sleeps (a timer, so at most
`longestWait`), and `join` waits for every request in flight.

Main statements:

- `runUntil_now`: after a run the clock stands at `t`, or where it was if that is later.
- `settle_now`: settling never moves the clock.
-/

namespace FeedClient

namespace Client

/-- Runs the clock to `t`, completing every request due by then. -/
def runUntil (c : Client) (t : Nat) : Client :=
  let due := c.pending.takeWhile (fun x => x.due ≤ t)
  let c' := due.foldl complete { c with pending := c.pending.dropWhile (fun x => x.due ≤ t) }
  { c' with store := c'.store.clearDue t, now := max c.now t }

/-- Completes what is due now, without moving the clock. -/
def settle (c : Client) : Client := c.runUntil c.now

/-- Sleeps for `ms` milliseconds. -/
def advance (c : Client) (ms : Nat) : Client := c.runUntil (wakeAt c.now ms)

/-- When the last request in flight is due, or now if none is later. -/
def horizon (c : Client) : Nat := c.pending.foldl (fun m x => max m x.due) c.now

/-- Waits for every request in flight. -/
def join (c : Client) : Client := c.runUntil c.horizon

/-- Running until a time moves the clock to it, unless the clock is past it. -/
@[simp]
theorem runUntil_now (c : Client) (t : Nat) : (c.runUntil t).now = max c.now t := rfl

/-- Settling the requests due keeps the clock. -/
@[simp]
theorem settle_now (c : Client) : c.settle.now = c.now := by
  simp [settle]

/-- Advancing the clock moves it to where a timer of that length ends. -/
theorem advance_now (c : Client) (ms : Nat) : (c.advance ms).now = wakeAt c.now ms := by
  simp [advance, wakeAt]

end Client

end FeedClient
