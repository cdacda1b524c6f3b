import BlockWatch.Node.Script
import BlockWatch.Shift.Loop

/-!
# Sessions

Normative source: SPEC_FULL.md, section 10.7:

    `Watcher::with_cache(config, rpc, notifier, cache)` shares an existing ... (e.g. with a query
    layer).

A session is one or more watchers on one node that share one cache.  A `Step` does something to the
session at once, or sends one watcher on an errand: a look at the head, an attempt, a tick or a
loop.  While it works, appointments are kept at their times; an appointment may concern that
watcher, the cache or the node.  What can be observed of a step is its `Report`.

Steps are made of turns.  In `Session.step` the caller waits for the tasks that a step has queued,
and in `Session.turn` it may do any other steps first, so that a task can run later than the step
that queued it.  A caller that goes on to ask the node waits while it does: that is a `Turn.wait`
before the step, because no step changes the cache before its first question.

A session has one thread.  Two watchers of a session do not work at the same time, but every action
on the shared cache can be done at every moment at which a watcher waits.
-/

set_option autoImplicit false

namespace BlockWatch

/-! ## Steps -/

/-- Work that takes time. -/
inductive Errand where
  /-- look at the head -/
  | observe
  /-- advance by at most one block -/
  | attempt
  /-- one tick -/
  | tick
  /-- a loop, which may be told to stop before it starts -/
  | listen (cancelled : Bool)
  deriving DecidableEq, Repr, Inhabited

/-- One step with the watcher at a place. -/
inductive Step (υ : Type) where
  /-- something that is done at once -/
  | act (watcher : Nat) (action : Action υ)
  /-- work, and what is done meanwhile at which times, in the order in which it was arranged -/
  | work (watcher : Nat) (errand : Errand) (meanwhile : List (Nat × Action υ))

/-- What an errand comes to. -/
inductive Outcome where
  | observed (result : Except Failure Unit)
  | attempted (result : Except Failure (Option String))
  | done
  /-- a loop that nobody stops; what is seen of it ends some time after the last appointment -/
  | endless

/-- What can be seen of a step. -/
structure Report where
  outcome : Outcome
  /-- milliseconds from the start of the step to the end of the errand -/
  elapsed : Nat
  /-- everything that was observed, oldest first -/
  events : List Event
  /-- what came of the things done meanwhile, in the order in which they were arranged -/
  answers : List (Except Failure Cache.Answer)

namespace Report

/-- The questions that were asked, with their times. -/
def asks (report : Report) : List (Nat × Ask) := report.events.filterMap Event.ask?

/-- The notifications that reached their receiver. -/
def notifications (report : Report) : List Notification :=
  report.events.filterMap Event.notification?

/-- The records that were written. -/
def records (report : Report) : List Record := report.events.filterMap Event.record?

end Report

/-! ## Agendas -/

/-- The appointments for what is to be done, in the order of time. -/
def agendaOf {υ : Type} (meanwhile : List (Nat × Action υ)) : List (Appointment υ) :=
  (meanwhile.zipIdx.map fun ((time, action), place) => ⟨place, time, action⟩).mergeSort
    fun a b => a.time ≤ b.time

/-- What came of appointments, in the order in which they were made. -/
def answersOf (kept : List (Nat × Except Failure Cache.Answer)) :
    List (Except Failure Cache.Answer) :=
  (kept.mergeSort fun a b => a.1 ≤ b.1).map (·.2)

/-! ## Sessions -/

/-- Watchers that share a cache. -/
structure Session (σ : Type) where
  pace : Pace
  node : σ
  cache : Cache := .empty
  watchers : List Watcher

namespace Session

variable {σ υ : Type}

/-- A session of new watchers. -/
def new (settings : Settings) (node : σ) (watchers : Nat) : Session σ :=
  { pace := settings.pace, node, watchers := List.replicate watchers {} }

/-- Send a watcher on an errand. -/
def run (node : Node σ υ) (pace : Pace) (shift : Shift σ υ) : Errand → Outcome × Shift σ υ
  | .observe =>
      let (result, shift) := shift.observeHead node
      (.observed result, shift)
  | .attempt =>
      let (result, shift) := shift.attempt node pace
      (.attempted result, shift)
  | .tick => (.done, shift.tick node pace)
  | .listen cancelled =>
      match shift.listen node pace cancelled with
      | (true, shift) => (.done, shift)
      | (false, shift) => (.endless, shift)

/-- Keep an appointment that is left when an errand is over.  Who keeps one for a later time waits,
and what is queued runs before. -/
def keepLeft (node : Node σ υ) (shift : Shift σ υ) (appointment : Appointment υ) : Shift σ υ :=
  (if shift.time < appointment.time then shift.settle else shift).keep node appointment

/-- Keep all that is left on the agenda. -/
def leave (node : Node σ υ) (shift : Shift σ υ) : Shift σ υ :=
  shift.agenda.foldl (keepLeft node) { shift with agenda := [], loop := none }

/-- Keep all that is left on the agenda, and wait for the tasks. -/
def finish (node : Node σ υ) (shift : Shift σ υ) : Shift σ υ := (leave node shift).settle

/-- The session after the shift of one of its watchers. -/
def absorb (session : Session σ) (place : Nat) (shift : Shift σ υ) : Session σ :=
  { session with
    node := shift.node
    cache := shift.cache
    watchers := session.watchers.set place shift.watcher }

/-- Take one step, which is over when `ending` has been done; there is no report where there is no
such watcher. -/
def take (node : Node σ υ) (ending : Shift σ υ → Shift σ υ) (session : Session σ) :
    Step υ → Option Report × Session σ
  | .act place action =>
      match session.watchers[place]? with
      | none => (none, session)
      | some watcher =>
          let shift : Shift σ υ := { node := session.node, cache := session.cache, watcher }
          let (answer, after) := shift.act node action
          (some ⟨.done, 0, after.history.reverse, [answer]⟩, session.absorb place after)
  | .work place errand meanwhile =>
      match session.watchers[place]? with
      | none => (none, session)
      | some watcher =>
          let shift : Shift σ υ :=
            { node := session.node, cache := session.cache, watcher
              agenda := agendaOf meanwhile }
          let (outcome, ended) := run node session.pace shift errand
          let last := ending ended
          (some ⟨outcome, ended.time, last.history.reverse, answersOf last.kept⟩,
            session.absorb place last)

/-- Take one step, and wait after work until nothing is left to do. -/
def step (node : Node σ υ) : Session σ → Step υ → Option Report × Session σ :=
  take node (finish node)

/-! ## Turns

A caller need not wait after work.  What it does next is then done while tasks are queued, and they
run at the next moment at which somebody waits. -/

/-- One turn of a caller. -/
inductive Turn (υ : Type) where
  /-- a step, after which the caller goes on at once -/
  | go (step : Step υ)
  /-- the tasks of the watcher at a place run -/
  | wait (watcher : Nat)

/-- Take one turn. -/
def turn (node : Node σ υ) (session : Session σ) : Turn υ → Option Report × Session σ
  | .go step => session.take node (leave node) step
  | .wait place =>
      match session.watchers[place]? with
      | none => (none, session)
      | some watcher =>
          let shift : Shift σ υ := { node := session.node, cache := session.cache, watcher }
          (some ⟨.done, 0, shift.settle.history.reverse, []⟩, session.absorb place shift.settle)

end Session

end BlockWatch
