import BlockWatch.Shift.Attempt

/-!
# Ticks and loops

Normative source: SPEC_FULL.md, section 4.3, `Listen`:

    runs until `ctx` is cancelled (externally, or via `Close`). Each iteration: wait `pollInterval`,
    then run `checkNewBlock` and `processNextBlock` synchronously.

`Shift.observeHead` models `checkNewBlock`, `Shift.tick` one iteration after the wait, and
`Shift.listen` the loop.  What fails in a tick is logged and does not stop anything: the attempt
follows a failed look at the head too (section 10.7, `tick()`).  A loop that is told to stop stops
at once while it rests, and after the tick while it ticks.  `Close` stops the loop whose handle the
watcher has, which is the one that was started last.

A loop that nobody stops never ends.  `Shift.listen` follows it until everything on the agenda is
over and says that it was not stopped.
-/

set_option autoImplicit false

namespace BlockWatch.Shift

variable {σ υ : Type}

/-! ## The head -/

/-- Ask for the head, and remember it if it is a quantity. -/
def lookAtHead (node : Node σ υ) (shift : Shift σ υ) : Except Failure Unit × Shift σ υ :=
  match shift.ask node .head with
  | (.error failure, shift) => (.error failure, shift)
  | (.ok head, shift) =>
      match Quantity.decode head with
      | .error failure => (.error failure, shift)
      | .ok _ => (.ok (), { shift with watcher := { shift.watcher with latest := some head } })

/-- Look at the head. -/
def observeHead (node : Node σ υ) (shift : Shift σ υ) : Except Failure Unit × Shift σ υ :=
  let (result, after) := shift.lookAtHead node
  (result, after.observe (.observed result))

/-! ## Ticks -/

/-- The records of a look at the head. -/
def headRecords : Except Failure Unit → List Record
  | .ok _ => []
  | .error failure =>
      [⟨.warn, "checking chain head failed, will retry next tick", [("error", failure.message)]⟩]

/-- The records of an attempt. -/
def attemptRecords : Except Failure (Option String) → List Record
  | .ok _ => []
  | .error (.consistency text) =>
      [⟨.error, "cache anomaly while processing block",
        [("error", (Failure.consistency text).message)]⟩]
  | .error failure =>
      [⟨.warn, "block processing failed, block will be reprocessed",
        [("error", failure.message)]⟩]

/-- One tick. -/
def tick (node : Node σ υ) (pace : Pace) (shift : Shift σ υ) : Shift σ υ :=
  let (observed, shift) := shift.observeHead node
  let (attempted, shift) := (shift.write (headRecords observed)).attempt node pace
  shift.write (attemptRecords attempted)

/-! ## Loops -/

/-- A shift in which a new loop runs.  The loop is the one in the watcher's hands from now on;
it may be told to stop before it starts. -/
def startLoop (shift : Shift σ υ) (cancelled : Bool) : Shift σ υ :=
  let loop := shift.watcher.loops
  { shift with
    loop := some loop
    stopped := cancelled
    watcher := { shift.watcher with loops := loop + 1, handle := some loop } }

/-- Rest until `time`, unless the loop is to stop already.  What is queued runs when the rest
begins. -/
def rest (node : Node σ υ) (time : Nat) (shift : Shift σ υ) : Shift σ υ :=
  if shift.stopped then shift else shift.settle.restUntil node time shift.settle.agenda

/-- Rest and tick until the loop is stopped, but at most `ticks` times: whether it was stopped, and
the shift after the last tick. -/
def loopFor (node : Node σ υ) (pace : Pace) : (ticks : Nat) → Shift σ υ → Bool × Shift σ υ
  | 0, shift => (false, shift)
  | ticks + 1, shift =>
      let rested := shift.rest node (shift.time + pace.interval)
      if rested.stopped then (true, rested) else loopFor node pace ticks (rested.tick node pace)

/-- A time after which nothing is on the agenda. -/
def horizon (agenda : List (Appointment υ)) : Nat :=
  agenda.foldl (fun latest appointment => max latest (appointment.time + 1)) 0

/-- Run a loop until it is stopped.  Every rest takes time, so a loop that is not stopped by the
last appointment is never stopped; it is followed until then. -/
def listen (node : Node σ υ) (pace : Pace) (shift : Shift σ υ) (cancelled : Bool) :
    Bool × Shift σ υ :=
  loopFor node pace (horizon shift.agenda + 2) (shift.startLoop cancelled)

end BlockWatch.Shift
