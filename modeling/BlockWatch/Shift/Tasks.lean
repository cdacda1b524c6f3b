import BlockWatch.Shift

/-!
# Tasks that run

Normative source: SPEC_FULL.md, section 4.3, `notifyForBlock`:

    loads the block's transaction hash list, resolves each from `Cache` (a miss here indicates a
    cache-consistency bug, since all hashes were just resolved in step 6 — logged and skipped, not
    retried)

    For **every** address in the subscriber snapshot — even one with an empty bucket for this block
    — `Notifier.Notify(address, bucket)` is invoked exactly once, concurrently and independently per
    address

`Shift.runTask` is what a task does when its turn comes.  An announcement models `notifyForBlock`.
It reads the cache as it is then, which may be later than the end of the attempt, and only starts
the deliveries; a delivery gives one notification to the outlet.

There is one thread.  A task runs when whoever works waits, and tasks run in the order in which they
were started.  `Shift.settle` is such a moment: it runs what is queued until nothing is.  Whoever
waits calls it; no look at the head and no attempt does (`Session.Turn`).
-/

set_option autoImplicit false

namespace BlockWatch.Shift

variable {σ υ : Type}

/-! ## Announcements -/

/-- The record of a transaction that the cache lacks, although its block was processed. -/
def lackingRecord (hash : String) (failure : Failure) : Record :=
  ⟨.error, "cache.get_tx failed", [("hash", hash), ("error", failure.message)]⟩

/-- The record of a block that the cache lacks, although it was processed. -/
def lackingBlockRecord (number : String) (failure : Failure) : Record :=
  ⟨.error, "cache.get_block failed", [("block", number), ("error", failure.message)]⟩

/-- The transactions of a block that the cache has, in block order. -/
def blockTransactions (cache : Cache) (block : Block) : List Transaction :=
  block.transactions.filterMap cache.transactions.find?

/-- The records of the transactions of a block that the cache lacks. -/
def lackingRecords (cache : Cache) (block : Block) : List Record :=
  block.transactions.filterMap fun hash =>
    match cache.transaction hash with
    | .ok _ => none
    | .error failure => some (lackingRecord hash failure)

/-- Start tasks: they are queued behind those that are. -/
def spawn (shift : Shift σ υ) (tasks : List Task) : Shift σ υ :=
  { shift with watcher := { shift.watcher with tasks := shift.watcher.tasks ++ tasks } }

/-- Announce a processed block: the transactions that the cache has of it now are put into buckets,
and for every subscriber a delivery is started. -/
def announce (shift : Shift σ υ) (number : String) (subscribers : List String) : Shift σ υ :=
  let shift := shift.observe (.announced number shift.cache)
  match shift.cache.block number with
  | .error failure => shift.write [lackingBlockRecord number failure]
  | .ok block =>
      (shift.write (lackingRecords shift.cache block)).spawn
        (Task.deliveries (Buckets.ofList (blockTransactions shift.cache block)) subscribers)

/-! ## Deliveries -/

/-- Send a notification to the outlet of the watcher. -/
def notify (shift : Shift σ υ) (notification : Notification) : Shift σ υ :=
  let delivery := shift.watcher.outlet.deliver notification
  (delivery.received.foldl (fun shift received => shift.observe (.notified received)) shift).write
    delivery.records

/-! ## The queue -/

/-- Run a task. -/
def runTask (shift : Shift σ υ) : Task → Shift σ υ
  | .announce number subscribers => shift.announce number subscribers
  | .deliver notification => shift.notify notification

/-- Run the tasks that are queued now; what they start is queued. -/
def runQueued (shift : Shift σ υ) : Shift σ υ :=
  shift.watcher.tasks.foldl runTask { shift with watcher := { shift.watcher with tasks := [] } }

/-- Run tasks until none is queued.  Announcements start deliveries and deliveries start nothing, so
two rounds are enough. -/
def settle (shift : Shift σ υ) : Shift σ υ := shift.runQueued.runQueued

end BlockWatch.Shift
