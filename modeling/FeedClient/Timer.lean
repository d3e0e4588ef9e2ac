/-!
# Timers

Every wait of the client (a reply on its way, an alert waiting to be cleared, a caller who
sleeps) is a timer in milliseconds. A timer never waits longer than `longestWait`, thirty
years of 365 days: a longer wait ends at that bound. `wakeAt now d` is when a wait of `d`
milliseconds started at `now` ends.

Main statements:

- `wakeAt_le`: a wait ends no later than asked.
- `wakeAt_of_le`: a wait within the bound ends exactly when asked.
- `wakeAt_le_iff`: only a wait of no time ends when it starts.
-/

namespace FeedClient

/-- The longest wait of a timer: thirty years of 365 days, in milliseconds. -/
def longestWait : Nat := 946080000000

/-- When a wait of `d` milliseconds started at `now` ends. -/
def wakeAt (now d : Nat) : Nat := now + min d longestWait

/-- A wait ends no later than asked. -/
theorem wakeAt_le (now d : Nat) : wakeAt now d ≤ now + d := by
  unfold wakeAt
  omega

/-- A wait within the bound ends exactly when asked. -/
theorem wakeAt_of_le {now d : Nat} (h : d ≤ longestWait) : wakeAt now d = now + d := by
  unfold wakeAt
  omega

/-- A wait ends as it starts exactly when it is of no time. -/
theorem wakeAt_le_iff (now d : Nat) : wakeAt now d ≤ now ↔ d = 0 := by
  unfold wakeAt longestWait
  omega

end FeedClient
