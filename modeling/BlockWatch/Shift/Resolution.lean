import BlockWatch.Settings
import BlockWatch.Shift

/-!
# Resolving transactions

Normative source: SPEC_FULL.md, section 4.3, step 6 of `processNextBlock`:

    Resolve every transaction hash in the block concurrently, partitioned into fixed-size batches
    (default 25) separated by a fixed delay (default 2s) between batch launches

and section 10.9:

    Batch delay is applied between batch launches, not before the first batch.
    All tasks of a block are joined even after a failure; the first error observed is returned.

`Resolution.batches` cuts the hashes into batches of the batch size, of which the last may be
smaller.  `Resolution.startBatches` is the loop over them: it sleeps before every batch but the
first, unless the delay is zero, and then starts the transactions of the batch.  A transaction that
the cache has is resolved at once, and every other one is asked for and becomes a `Flight`.  While
the loop sleeps, flights that are due land.  `Resolution.run` waits for those that are left.

The failure that comes first in time is the failure of the whole.  Of several at one moment it is
that of the transaction that was started first.
-/

set_option autoImplicit false

namespace BlockWatch

/-- A transaction that was asked for, and when the time for it is over. -/
structure Flight where
  hash : String
  due : Nat
  deriving DecidableEq, Repr, Inhabited

/-- A resolution under way. -/
structure Resolution (σ υ : Type) where
  shift : Shift σ υ
  /-- what was asked for and is waited for, in the order of time -/
  flights : List Flight := []
  /-- the first failure -/
  failure : Option Failure := none

namespace Resolution

variable {σ υ : Type}

/-- Flights with one more: it comes after those that end at the same time. -/
def enqueue (flight : Flight) : List Flight → List Flight
  | [] => [flight]
  | other :: rest =>
      if flight.due < other.due then flight :: other :: rest else other :: enqueue flight rest

/-- The end of the time for a transaction: it is stored under the hash that the answer carries,
or its task has failed. -/
def land (node : Node σ υ) (resolution : Resolution σ υ) (hash : String) : Resolution σ υ :=
  let shift := resolution.shift
  if node.crashes shift.node hash then
    { resolution with
      shift := shift.observe (.answered shift.time (.transaction hash) (.error .taskCrashed))
      failure := resolution.failure <|> some .taskCrashed }
  else
    match shift.receive node (.transaction hash) with
    | (.ok transaction, shift) =>
        { resolution with
          shift := { shift with cache := shift.cache.addTransaction transaction } }
    | (.error failure, shift) =>
        { resolution with shift, failure := resolution.failure <|> some failure }

/-- Wait for a flight and land it. -/
def await (node : Node σ υ) (resolution : Resolution σ υ) (flight : Flight) : Resolution σ υ :=
  { resolution with shift := resolution.shift.passUntil node flight.due }.land node flight.hash

/-- Land the flights that end by `time`; the others stay. -/
def landUntil (node : Node σ υ) (time : Nat) (resolution : Resolution σ υ) :
    List Flight → Resolution σ υ
  | [] => { resolution with flights := [] }
  | flight :: rest =>
      if flight.due ≤ time then landUntil node time (resolution.await node flight) rest
      else { resolution with flights := flight :: rest }

/-- Go on to `time`, landing what ends by then. -/
def reach (node : Node σ υ) (time : Nat) (resolution : Resolution σ υ) : Resolution σ υ :=
  let resolution := landUntil node time resolution resolution.flights
  { resolution with shift := resolution.shift.passUntil node time }

/-- Start the resolution of one transaction. -/
def start (node : Node σ υ) (resolution : Resolution σ υ) (place : Nat) (hash : String) :
    Resolution σ υ :=
  let shift := resolution.shift.observe (.resolving resolution.shift.time place hash)
  if shift.cache.transactions.contains hash then { resolution with shift }
  else
    let ask := Ask.transaction hash
    let latency := node.latency shift.node ask
    let resolution := { resolution with shift := shift.observe (.asked shift.time ask) }
    if latency = 0 then resolution.land node hash
    else
      { resolution with flights := enqueue ⟨hash, shift.time + latency⟩ resolution.flights }

/-! ## Batches -/

/-- Sleep for some time; what ends meanwhile lands. -/
def sleep (node : Node σ υ) (resolution : Resolution σ υ) (span : Nat) : Resolution σ υ :=
  resolution.reach node (resolution.shift.time + span)

/-- The hashes for which a batch still has room, and the others in batches of the same size. -/
def split (size : Nat) : (room : Nat) → List String → List String × List (List String)
  | _, [] => ([], [])
  | 0, hash :: rest =>
      let (batch, others) := split size (size - 1) rest
      ([], (hash :: batch) :: others)
  | room + 1, hash :: rest =>
      let (batch, others) := split size room rest
      (hash :: batch, others)

/-- The hashes of a block in batches of the batch size; the last one may be smaller. -/
def batches (pace : Pace) (hashes : List String) : List (List String) :=
  (split pace.batchSize 0 hashes).2

/-- Start the transactions of a batch, of which the first is at a place in the block. -/
def startBatch (node : Node σ υ) (place : Nat) (resolution : Resolution σ υ) :
    List String → Resolution σ υ
  | [] => resolution
  | hash :: rest => startBatch node (place + 1) (resolution.start node place hash) rest

/-- Start the batches from the `i`-th on.  Before each but the first one there is a sleep for the
batch delay, unless that is zero. -/
def startBatches (node : Node σ υ) (pace : Pace) (i : Nat) (resolution : Resolution σ υ) :
    List (List String) → Resolution σ υ
  | [] => resolution
  | batch :: rest =>
      let rested :=
        if 0 < i ∧ pace.batchDelay ≠ 0 then resolution.sleep node pace.batchDelay
        else resolution
      startBatches node pace (i + 1) (rested.startBatch node (i * pace.batchSize) batch) rest

/-- Resolve all transactions of a block: the first failure, if there is one, and the shift when
everything has ended. -/
def run (node : Node σ υ) (pace : Pace) (shift : Shift σ υ) (hashes : List String) :
    Option Failure × Shift σ υ :=
  let started := startBatches node pace 0 { shift } (batches pace hashes)
  let ended := started.flights.foldl (await node) started
  (ended.failure, ended.shift)

end Resolution

end BlockWatch
