import BlockWatch.Node
import BlockWatch.Watcher

/-!
# Shifts

Normative source: SPEC_FULL.md, section 5:

    Suspension points: the poll loop suspends at the inter-tick delay and the inter-batch delay;
    transaction-resolution tasks suspend on network I/O inside the RPC collaborator.

A shift is one watcher at work: a clock, the node, the cache, the watcher, and what is going to be
done to them meanwhile.  Time is a value.  It moves only by `Shift.passUntil` and `Shift.restUntil`,
at the suspension points, and whatever stands on the agenda before the new time is done on the way.
So work that waits is open to everything that other callers do while it waits, and to nothing at
other moments.

An `Action` is what a caller can do at once: subscribe, unsubscribe, operate on the cache, close the
watcher, cancel its context, drop the receiver of the notifications, or change the node.

Everything that can be observed of a shift is in its history, newest first (`Event`): the questions
and how they were answered, the transactions whose resolution was started, the looks at the head and
the attempts with their results, the announcements and notifications, and the journal records.
-/

set_option autoImplicit false

namespace BlockWatch

/-! ## Actions -/

/-- What can be done to a watcher at once, also while it is at work. -/
inductive Action (υ : Type) where
  | subscribe (address : String)
  | unsubscribe (address : String)
  /-- something happens to the node -/
  | node (update : υ)
  /-- an operation on the watcher's cache -/
  | cache (call : Cache.Call)
  /-- stop the loop that the watcher has in its hands -/
  | close
  /-- stop the loop that runs in this shift -/
  | cancel
  /-- the receiver of the notifications goes away -/
  | dropReceiver

/-- An action that is going to be done. -/
structure Appointment (υ : Type) where
  /-- its place among the appointments that were made -/
  place : Nat
  time : Nat
  action : Action υ

/-! ## History -/

/-- A watcher and its cache at one moment. -/
structure Snapshot where
  time : Nat
  watcher : Watcher
  cache : Cache
  deriving Repr, Inhabited

/-- What can be observed of a shift. -/
inductive Event where
  /-- a question was asked -/
  | asked (time : Nat) (ask : Ask)
  /-- the time for a question is over: its answer, or the failure that there was instead -/
  | answered (time : Nat) (ask : Ask) (answer : Except Failure ask.Answer)
  /-- the resolution of a transaction was started, by its place in the block -/
  | resolving (time : Nat) (place : Nat) (hash : String)
  /-- the head was looked at -/
  | observed (result : Except Failure Unit)
  /-- a block was attempted, between two moments -/
  | attempted (before after : Snapshot) (result : Except Failure (Option String))
  /-- a processed block was announced, from the cache as it was then -/
  | announced (number : String) (cache : Cache)
  /-- a notification reached its receiver -/
  | notified (notification : Notification)
  /-- a record was written -/
  | recorded (record : Record)

namespace Event

/-- The question that was asked, and when. -/
def ask? : Event → Option (Nat × Ask)
  | .asked time ask => some (time, ask)
  | _ => none

/-- The notification that reached its receiver. -/
def notification? : Event → Option Notification
  | .notified notification => some notification
  | _ => none

/-- The record that was written. -/
def record? : Event → Option Record
  | .recorded record => some record
  | _ => none

end Event

/-! ## Shifts -/

/-- One watcher at work on a node with states `σ` and updates `υ`. -/
structure Shift (σ υ : Type) where
  /-- milliseconds since the start of the shift -/
  time : Nat := 0
  node : σ
  cache : Cache
  watcher : Watcher
  /-- what is going to be done, in the order of time -/
  agenda : List (Appointment υ) := []
  /-- what came of the appointments that were kept, by their places, newest first -/
  kept : List (Nat × Except Failure Cache.Answer) := []
  /-- the number of the loop that runs in this shift -/
  loop : Option Nat := none
  /-- whether that loop is to stop -/
  stopped : Bool := false
  /-- what was observed, newest first -/
  history : List Event := []

namespace Shift

variable {σ υ : Type}

/-- Add to the history. -/
def observe (shift : Shift σ υ) (event : Event) : Shift σ υ :=
  { shift with history := event :: shift.history }

/-- Add records to the history. -/
def write (shift : Shift σ υ) (records : List Record) : Shift σ υ :=
  records.foldl (fun shift record => shift.observe (.recorded record)) shift

/-- The watcher and the cache as they are now. -/
def snapshot (shift : Shift σ υ) : Snapshot := ⟨shift.time, shift.watcher, shift.cache⟩

/-- Stop the loop in the watcher's hands, which it then no longer has. -/
def close (shift : Shift σ υ) : Shift σ υ :=
  match shift.watcher.handle with
  | none => shift
  | some loop =>
      { shift with
        watcher := { shift.watcher with handle := none }
        stopped := shift.stopped || shift.loop = some loop }

/-- Do an action. -/
def act (node : Node σ υ) (shift : Shift σ υ) :
    Action υ → Except Failure Cache.Answer × Shift σ υ
  | .subscribe address =>
      let (records, watcher, cache) := shift.watcher.subscribe shift.cache address
      (.ok .done, { shift with watcher, cache }.write records)
  | .unsubscribe address =>
      let (result, watcher, cache) := shift.watcher.unsubscribe shift.cache address
      (result.map fun _ => .done, { shift with watcher, cache })
  | .node update => (.ok .done, { shift with node := node.update update shift.node })
  | .cache call =>
      let (answer, cache) := shift.cache.consult call
      (answer, { shift with cache })
  | .close => (.ok .done, shift.close)
  | .cancel => (.ok .done, { shift with stopped := shift.stopped || shift.loop.isSome })
  | .dropReceiver =>
      (.ok .done,
        { shift with
          watcher := { shift.watcher with outlet := shift.watcher.outlet.dropReceiver } })

/-! ## Time -/

/-- Keep an appointment. -/
def keep (node : Node σ υ) (shift : Shift σ υ) (appointment : Appointment υ) : Shift σ υ :=
  let (answer, after) := shift.act node appointment.action
  { after with kept := (appointment.place, answer) :: after.kept }

/-- Keep the appointments before `time`, and leave the others on the agenda. -/
def keepBefore (node : Node σ υ) (time : Nat) (shift : Shift σ υ) :
    List (Appointment υ) → Shift σ υ
  | [] => { shift with agenda := [] }
  | appointment :: rest =>
      if appointment.time < time then keepBefore node time (shift.keep node appointment) rest
      else { shift with agenda := appointment :: rest }

/-- Let time pass until `time`; what is on the agenda before then is done. -/
def passUntil (node : Node σ υ) (time : Nat) (shift : Shift σ υ) : Shift σ υ :=
  { shift.keepBefore node time shift.agenda with time }

/-- Rest until `time`, or until the loop is to stop, whichever comes first. -/
def restUntil (node : Node σ υ) (time : Nat) (shift : Shift σ υ) :
    List (Appointment υ) → Shift σ υ
  | [] => if shift.stopped then { shift with agenda := [] } else { shift with agenda := [], time }
  | appointment :: rest =>
      if shift.stopped then { shift with agenda := appointment :: rest }
      else if appointment.time < time then
        restUntil node time
          { shift.keep node appointment with time := max shift.time appointment.time } rest
      else { shift with agenda := appointment :: rest, time }

/-! ## Questions -/

/-- The answer to a question whose time is over. -/
def receive (node : Node σ υ) (shift : Shift σ υ) (ask : Ask) :
    Except Failure ask.Answer × Shift σ υ :=
  let (told, state) := node.answer ask shift.node
  let answer := told.mapError ask.failure
  (answer, { shift with node := state }.observe (.answered shift.time ask answer))

/-- Ask a question and wait for the answer. -/
def ask (node : Node σ υ) (shift : Shift σ υ) (ask : Ask) :
    Except Failure ask.Answer × Shift σ υ :=
  let due := shift.time + node.latency shift.node ask
  ((shift.observe (.asked shift.time ask)).passUntil node due).receive node ask

end Shift

end BlockWatch
