import BlockWatch.Timer

/-!
# Settings

Normative source: SPEC_FULL.md, section 10.4:

    Defaults: poll 15s, batch 25, delay 2s, RPC timeout 30s. Zero values for poll interval / batch
    size / rpc timeout are replaced by the defaults (`normalized()`); a zero batch delay is honoured
    (disables rate limiting; used by tests).

`Settings` is the configuration of module `config`, with all times in milliseconds, and
`Settings.normalized` is `normalized()`.  `Pace` is what a watcher uses of it while it works.  It
carries the proofs that the poll interval and the batch size are not zero, which normalization
guarantees, and its times are limited to what timers run for (`Timer.span`).
-/

set_option autoImplicit false

namespace BlockWatch

/-- How a watcher is set up. -/
structure Settings where
  /-- the address of the node -/
  endpoint : String := ""
  /-- the time from the end of one tick to the start of the next -/
  interval : Nat := 15000
  /-- how many transactions are resolved at the same time -/
  batchSize : Nat := 25
  /-- the time between the starts of two batches -/
  batchDelay : Nat := 2000
  /-- how long a request may take -/
  timeout : Nat := 30000
  deriving DecidableEq, Repr, Inhabited

namespace Settings

/-- A number that was given, or else the default. -/
def orDefault (given default : Nat) : Nat := if given = 0 then default else given

/-- The settings with the defaults for what was not given. -/
def normalized (settings : Settings) : Settings :=
  let defaults : Settings := {}
  { settings with
    interval := orDefault settings.interval defaults.interval
    batchSize := orDefault settings.batchSize defaults.batchSize
    timeout := orDefault settings.timeout defaults.timeout }

theorem orDefault_pos {given default : Nat} (h : 0 < default) : 0 < orDefault given default := by
  unfold orDefault
  split <;> omega

end Settings

/-- The pace at which a watcher works: it rests between ticks, and a batch is never empty. -/
structure Pace where
  interval : Nat
  batchSize : Nat
  batchDelay : Nat
  interval_pos : 0 < interval
  batchSize_pos : 0 < batchSize
  deriving DecidableEq, Repr

/-- The pace that settings ask for, as far as timers can keep it. -/
def Settings.pace (settings : Settings) : Pace where
  interval := Timer.span settings.normalized.interval
  batchSize := settings.normalized.batchSize
  batchDelay := Timer.span settings.normalized.batchDelay
  interval_pos := Timer.span_pos (orDefault_pos (by decide))
  batchSize_pos := orDefault_pos (by decide)

end BlockWatch
