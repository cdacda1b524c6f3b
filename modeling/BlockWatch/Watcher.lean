import BlockWatch.Address
import BlockWatch.Cache
import BlockWatch.Outlet
import BlockWatch.Quantity
import BlockWatch.Task

/-!
# Watchers

Normative source: SPEC_FULL.md, section 3:

    `currentBlock: BlockNumber | ""` (last block number the Watcher has fully processed, `""` before
    first run), `latestBlock: BlockNumber | ""` (most recent chain head observed)

`Watcher` is the state behind the lock of the watcher, with `none` for an empty text, the outlet for
notifications, the handle of the loop that `Close` stops, and the queued tasks.  This module has
what a watcher does without asking a node:

* `subscribe` and `unsubscribe` (section 10.7).  Both change the watcher first and the cache second,
  and the removal from the cache can fail after the removal from the watcher.
* `candidate`, steps 2 to 4 of `processNextBlock` in section 4.3, and the comparison with the head
  of section 10.9: "If the candidate next block is numerically above the observed head (a lagging
  node reported an older head), the tick does nothing."

Of the journal only the record of a new subscription is kept here (`Journal`).
-/

set_option autoImplicit false

namespace BlockWatch

/-- The state of one watcher. -/
structure Watcher where
  /-- the subscribed addresses, in canonical spelling -/
  subscriptions : List String := []
  /-- the last block that was processed -/
  current : Option String := none
  /-- the newest head that was observed -/
  latest : Option String := none
  /-- where notifications go -/
  outlet : Outlet := .channel true
  /-- how many loops were started -/
  loops : Nat := 0
  /-- the number of the loop that closing stops -/
  handle : Option Nat := none
  /-- the tasks that are queued, in the order in which they were started -/
  tasks : List Task := []
  deriving Repr, Inhabited

namespace Watcher

/-! ## Subscriptions -/

/-- The record of a new subscription. -/
def subscribedRecord (address : String) : Record := ⟨.info, "subscribed", [("address", address)]⟩

/-- Subscribe an address in canonical spelling, with the watcher and with the cache; nothing
happens if the watcher has it. -/
def subscribe (watcher : Watcher) (cache : Cache) (address : String) :
    List Record × Watcher × Cache :=
  let address := Address.canonical address
  if watcher.subscriptions.contains address then ([], watcher, cache)
  else
    ([subscribedRecord address],
      { watcher with subscriptions := Roster.add watcher.subscriptions address },
      cache.subscribe address)

/-- Unsubscribe an address that the watcher has, first with the watcher and then with the
cache. -/
def unsubscribe (watcher : Watcher) (cache : Cache) (address : String) :
    Except Failure Unit × Watcher × Cache :=
  let address := Address.canonical address
  match Roster.remove? watcher.subscriptions address with
  | none => (.error (.addressNotFound address), watcher, cache)
  | some rest =>
      let watcher := { watcher with subscriptions := rest }
      match cache.unsubscribe address with
      | .error failure => (.error failure, watcher, cache)
      | .ok cache => (.ok (), watcher, cache)

/-- Subscribe several addresses one after the other. -/
def subscribeAll (watcher : Watcher) (cache : Cache) :
    List String → List Record × Watcher × Cache
  | [] => ([], watcher, cache)
  | address :: rest =>
      let (first, watcher, cache) := watcher.subscribe cache address
      let (others, watcher, cache) := watcher.subscribeAll cache rest
      (first ++ others, watcher, cache)

/-! ## The next block -/

/-- The number after `n`, `step` further on. -/
def successor (base : String) (n : Int) (step : Nat) : Except Failure String :=
  match Quantity.add? n step with
  | some next => .ok (Quantity.encode next)
  | none => .error (.consistency ("block number overflow after " ++ base))

/-- The block to work on next, if there is one.  A watcher that has processed nothing starts at
the head.  A block that the cache does not have as processed is worked on itself, any other one is
followed by its successor, and nothing lies beyond the head. -/
def candidate (watcher : Watcher) (cache : Cache) : Except Failure (Option String) :=
  match watcher.latest with
  | none => .ok none
  | some head =>
      if watcher.current = some head then .ok none
      else do
        let (base, step) := match watcher.current with
          | some current => (current, 1)
          | none => (head, 0)
        let n ← Quantity.decode base
        let next ← match cache.isProcessed base with
          | .ok true => successor base n step
          | _ => .ok base
        let number ← Quantity.decode next
        let bound ← Quantity.decode head
        if bound < number then pure none else pure (some next)

end Watcher

end BlockWatch
