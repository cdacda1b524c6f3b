/-!
# Timers

Normative source: SPEC_FULL.md, section 4.3, for the two delays that are waited for:

    Because the wait is a fixed delay *after* the previous tick's work completes (not a fixed-rate
    clock), slow ticks self-throttle instead of queuing up.

All times are in milliseconds.  A timer can be set for any time, but none runs for longer than
thirty years of 365 days; one that is set for longer goes off then.  This is a documented limit of
the timers that the delays are implemented with.
-/

set_option autoImplicit false

namespace BlockWatch.Timer

/-- The longest time that a timer runs. -/
def longest : Nat := 30 * 365 * 24 * 60 * 60 * 1000

/-- How long a timer runs that is set for some time: as long as it is set for, up to the longest
time. -/
def span (time : Nat) : Nat := min time longest

theorem span_pos {time : Nat} (h : 0 < time) : 0 < span time := by
  unfold span longest
  omega

end BlockWatch.Timer
