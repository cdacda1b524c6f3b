import BlockWatch.Shift.Resolution
import BlockWatch.Shift.Tasks

/-!
# Attempts

Normative source: SPEC_FULL.md, section 4.3, `processNextBlock`:

    Snapshot `(subscriptions, currentBlock, latestBlock)` under lock; release lock before any
    network call.

    On full success, `Cache.SetBlockProcessed(nextBlockNumber)`.

    Advance `watcher.currentBlock` to the resolved number (under lock).

`Shift.attempt` models `processNextBlock`.  It chooses the candidate (`Watcher.candidate`), obtains
the block from the cache or from the node, resolves its transactions (`Resolution.run`), marks the
block, makes it the current one, and queues its announcement for the addresses that were subscribed
when the attempt began.  An attempt that fails leaves the block for the next one and keeps in the
cache what it learned.

The event of an attempt carries watcher and cache at its beginning and at its end, so that
statements about attempts can be read off the history.
-/

set_option autoImplicit false

namespace BlockWatch.Shift

variable {σ υ : Type}

/-! ## Attempts -/

/-- The block with a number, from the cache or else from the node. -/
def obtainBlock (node : Node σ υ) (shift : Shift σ υ) (number : String) :
    Except Failure Block × Shift σ υ :=
  match shift.cache.block number with
  | .ok block => (.ok block, shift)
  | .error _ =>
      match shift.ask node (.block number) with
      | (.error failure, shift) => (.error failure, shift)
      | (.ok block, shift) =>
          let shift := { shift with cache := shift.cache.addBlock number block }
          (shift.cache.block number, shift)

/-- Process one block for some subscribers. -/
def processBlock (node : Node σ υ) (pace : Pace) (shift : Shift σ υ) (number : String)
    (subscribers : List String) : Except Failure (Option String) × Shift σ υ :=
  match shift.obtainBlock node number with
  | (.error failure, shift) => (.error failure, shift)
  | (.ok block, shift) =>
      match Resolution.run node pace shift block.transactions with
      | (some failure, shift) => (.error failure, shift)
      | (none, shift) =>
          match shift.cache.markProcessed number with
          | .error failure =>
              (.error (.consistency
                ("could not mark block " ++ number ++ " processed: " ++ failure.message)), shift)
          | .ok cache =>
              let watcher := { shift.watcher with current := some number }
              (.ok (some number),
                { shift with cache, watcher }.spawn [.announce number subscribers])

/-- The work of an attempt: the number of the block that was processed, or none where there was
nothing to do. -/
def advance (node : Node σ υ) (pace : Pace) (shift : Shift σ υ) :
    Except Failure (Option String) × Shift σ υ :=
  match shift.watcher.candidate shift.cache with
  | .error failure => (.error failure, shift)
  | .ok none => (.ok none, shift)
  | .ok (some number) => shift.processBlock node pace number shift.watcher.subscriptions

/-- Advance by at most one block. -/
def attempt (node : Node σ υ) (pace : Pace) (shift : Shift σ υ) :
    Except Failure (Option String) × Shift σ υ :=
  let (result, after) := shift.advance node pace
  (result, after.observe (.attempted shift.snapshot after.snapshot result))

end BlockWatch.Shift
