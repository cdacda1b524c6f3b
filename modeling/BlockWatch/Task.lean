import BlockWatch.Buckets

/-!
# Notification tasks

Normative source: SPEC_FULL.md, section 4.3, step 9 of `processNextBlock`:

    Asynchronously (non-blocking to the poll loop) invoke `notifyForBlock(nextBlockNumber,
    subscriptionSnapshot)`.

and section 9:

    Fire-and-forget concurrent notification → model as one independent task per subscriber per
    block; the parent loop's cancellation must not implicitly cancel tasks already dispatched

A watcher does not tell its subscribers about a block itself.  An attempt that has processed one
starts a task that announces it, and that task starts another one for each subscriber, which sends
what is in the bucket of its address.  Tasks that were started are queued at the watcher.  They run,
first come first served, when whoever works next waits for something (`Shift.settle`).
-/

set_option autoImplicit false

namespace BlockWatch

/-- Work that was started and that nobody waits for. -/
inductive Task where
  /-- announce a processed block to those who were subscribed when its attempt began -/
  | announce (number : String) (subscribers : List String)
  /-- send a notification -/
  | deliver (notification : Notification)
  deriving Repr, Inhabited

/-- The tasks that deliver to subscribers what is in their buckets; a bucket is given away once. -/
def Task.deliveries (buckets : Table (List Transaction)) : List String → List Task
  | [] => []
  | address :: rest =>
      .deliver ⟨address, Buckets.get buckets address⟩ ::
        Task.deliveries (buckets.erase address) rest

end BlockWatch
