import BlockWatch.Proofs.Shift.Likeness

/-!
# The same work elsewhere

Normative source: SPEC_FULL.md, section 10.7:

    `tick()`: one poll iteration (check + process) with errors logged.

A tick that a loop makes is the same function as a tick that a caller asks for.  What a watcher does
depends on the node, the cache, the watcher and how far ahead its appointments are.  It does not
depend on what the clock shows, on what has happened before, or on which loop is in the watcher's
hands.  `Shift.Echoes` says that two shifts agree in the former and differ in the latter by a given
`Echo`: a delay and a change of the handle.

Work keeps shifts echoing (`Echoes.likeness`, `Echoes.tick`), so a tick of a loop does what a tick
does in a shift of its own (`Shift.afresh`), and the handle makes no difference to what is done.
-/

set_option autoImplicit false

namespace BlockWatch

variable {σ υ : Type}

/-! ## Echoes -/

/-- How the same work looks elsewhere: some time later, and with something else in the watcher's
hands. -/
structure Echo where
  delay : Nat
  hold : Option Nat → Option Nat
  /-- what is taken from the watcher's hands is taken there as well -/
  hold_none : hold none = none

namespace Echo

/-- The same some time later. -/
def late (delay : Nat) : Echo := ⟨delay, id, rfl⟩

/-- The same at the same time, with nothing in the watcher's hands. -/
def released : Echo := ⟨0, fun _ => none, rfl⟩

/-- A watcher as it is elsewhere. -/
def watcher (echo : Echo) (watcher : Watcher) : Watcher :=
  { watcher with handle := echo.hold watcher.handle }

/-- A moment as it is elsewhere. -/
def snapshot (echo : Echo) (moment : Snapshot) : Snapshot :=
  ⟨moment.time + echo.delay, echo.watcher moment.watcher, moment.cache⟩

/-- An event as it is elsewhere. -/
def event (echo : Echo) : Event → Event
  | .asked time ask => .asked (time + echo.delay) ask
  | .answered time ask answer => .answered (time + echo.delay) ask answer
  | .resolving time place hash => .resolving (time + echo.delay) place hash
  | .observed result => .observed result
  | .attempted before after result =>
      .attempted (echo.snapshot before) (echo.snapshot after) result
  | .announced number cache => .announced number cache
  | .notified notification => .notified notification
  | .recorded record => .recorded record

variable (echo : Echo) (watcher : Watcher)

theorem subscribe (cache : Cache) (address : String) :
    (echo.watcher watcher).subscribe cache address =
      ((watcher.subscribe cache address).1, echo.watcher (watcher.subscribe cache address).2.1,
        (watcher.subscribe cache address).2.2) := by
  unfold Watcher.subscribe
  by_cases h : watcher.subscriptions.contains (Address.canonical address) = true
  · rw [if_pos h, if_pos (show (echo.watcher watcher).subscriptions.contains _ = true from h)]
  · rw [if_neg h, if_neg (show ¬(echo.watcher watcher).subscriptions.contains _ = true from h)]
    rfl

theorem unsubscribe (cache : Cache) (address : String) :
    (echo.watcher watcher).unsubscribe cache address =
      ((watcher.unsubscribe cache address).1,
        echo.watcher (watcher.unsubscribe cache address).2.1,
        (watcher.unsubscribe cache address).2.2) := by
  have hsame : (echo.watcher watcher).subscriptions = watcher.subscriptions := rfl
  unfold Watcher.unsubscribe
  cases hrest : Roster.remove? watcher.subscriptions (Address.canonical address) with
  | none => simp only [hsame, hrest]
  | some rest =>
      cases hcache : cache.unsubscribe (Address.canonical address) with
      | error failure =>
          simp only [hsame, hrest, hcache]
          rfl
      | ok without =>
          simp only [hsame, hrest, hcache]
          rfl

theorem candidate (cache : Cache) :
    (echo.watcher watcher).candidate cache = watcher.candidate cache := rfl

theorem watcher_latest (latest : Option String) :
    echo.watcher { watcher with latest } = { echo.watcher watcher with latest } := rfl

theorem watcher_current (current : Option String) :
    echo.watcher { watcher with current } = { echo.watcher watcher with current } := rfl

theorem watcher_closed :
    echo.watcher { watcher with handle := none } = { watcher with handle := none } := by
  rw [Echo.watcher, echo.hold_none]

end Echo

/-- The same appointment some time later. -/
def Appointment.later (delay : Nat) (appointment : Appointment υ) : Appointment υ :=
  { appointment with time := appointment.time + delay }

/-- The same appointment some time sooner. -/
def Appointment.sooner (advance : Nat) (appointment : Appointment υ) : Appointment υ :=
  { appointment with time := appointment.time - advance }

namespace Shift

/-- A shift of its own from the same state: the clock begins anew, there is no loop, and what was on
the agenda is as far ahead as before. -/
def afresh (shift : Shift σ υ) : Shift σ υ where
  node := shift.node
  cache := shift.cache
  watcher := shift.watcher
  agenda := shift.agenda.map (·.sooner shift.time)

/-- One shift is where another one is some time later, after some events and some appointments of
its own.  Nothing is said about loops. -/
structure Echoes (echo : Echo) (earlier : List Event)
    (settled : List (Nat × Except Failure Cache.Answer)) (inner outer : Shift σ υ) : Prop where
  time : outer.time = inner.time + echo.delay
  node : outer.node = inner.node
  cache : outer.cache = inner.cache
  watcher : outer.watcher = echo.watcher inner.watcher
  agenda : outer.agenda = inner.agenda.map (·.later echo.delay)
  kept : outer.kept = inner.kept ++ settled
  history : outer.history = inner.history.map echo.event ++ earlier

/-- A shift echoes the one that starts afresh from it. -/
theorem echoes_afresh {shift : Shift σ υ}
    (ahead : ∀ appointment ∈ shift.agenda, shift.time ≤ appointment.time) :
    Echoes (.late shift.time) shift.history shift.kept shift.afresh shift where
  time := (Nat.zero_add _).symm
  node := rfl
  cache := rfl
  watcher := rfl
  agenda := by
    have hback : ∀ appointment ∈ shift.agenda,
        (appointment.sooner shift.time).later shift.time = id appointment := by
      intro appointment hmem
      have hle := ahead appointment hmem
      simp only [Appointment.sooner, Appointment.later, Nat.sub_add_cancel hle, id]
    rw [afresh, List.map_map]
    exact ((List.map_congr_left hback).trans (List.map_id _)).symm
  kept := rfl
  history := rfl

namespace Echoes

variable {echo : Echo} {earlier : List Event}
  {settled : List (Nat × Except Failure Cache.Answer)} {inner outer : Shift σ υ}

/-! ## Noting -/

theorem observe (echoes : Echoes echo earlier settled inner outer) (event : Event) :
    Echoes echo earlier settled (inner.observe event) (outer.observe (echo.event event)) :=
  { echoes with
    history := by simp only [Shift.observe, echoes.history, List.map_cons, List.cons_append] }

/-- An event that happens now, whatever the clock shows. -/
theorem observeNow (echoes : Echoes echo earlier settled inner outer) (event : Nat → Event)
    (timed : ∀ time, event (time + echo.delay) = echo.event (event time)) :
    Echoes echo earlier settled (inner.observe (event inner.time))
      (outer.observe (event outer.time)) := by
  rw [echoes.time, timed]
  exact echoes.observe _

theorem write (echoes : Echoes echo earlier settled inner outer) (records : List Record) :
    Echoes echo earlier settled (inner.write records) (outer.write records) := by
  have hsame : (records.map Event.recorded).map echo.event = records.map Event.recorded := by
    rw [List.map_map]
    rfl
  rw [write_eq, write_eq]
  exact { echoes with
    history := by
      simp only [echoes.history, List.map_append, List.map_reverse, hsame, List.append_assoc] }

/-! ## Waiting -/

/-- An action has the same result and preserves the echo. -/
theorem act (echoes : Echoes echo earlier settled inner outer) (node : Node σ υ)
    (action : Action υ) :
    (outer.act node action).1 = (inner.act node action).1 ∧
      Echoes echo earlier settled (inner.act node action).2 (outer.act node action).2 := by
  cases action with
  | subscribe address =>
      simp only [Shift.act, echoes.watcher, echoes.cache, echo.subscribe]
      refine ⟨trivial, write ?_ _⟩
      exact { echoes with watcher := rfl, cache := rfl }
  | unsubscribe address =>
      simp only [Shift.act, echoes.watcher, echoes.cache, echo.unsubscribe]
      exact ⟨trivial, { echoes with watcher := rfl, cache := rfl }⟩
  | node update =>
      simp only [Shift.act, echoes.node]
      exact ⟨trivial, { echoes with node := rfl }⟩
  | cache call =>
      simp only [Shift.act, echoes.cache]
      exact ⟨trivial, { echoes with cache := rfl }⟩
  | close =>
      obtain ⟨stopped, hinner⟩ := inner.close_eq
      obtain ⟨stopped', houter⟩ := outer.close_eq
      simp only [Shift.act, hinner, houter, echoes.watcher]
      exact ⟨trivial, { echoes with watcher := (echo.watcher_closed inner.watcher).symm }⟩
  | cancel => exact ⟨rfl, { echoes with }⟩
  | dropReceiver =>
      simp only [Shift.act, echoes.watcher]
      exact ⟨trivial, { echoes with watcher := rfl }⟩

theorem keep (echoes : Echoes echo earlier settled inner outer) (node : Node σ υ)
    (appointment : Appointment υ) :
    Echoes echo earlier settled (inner.keep node appointment)
      (outer.keep node (appointment.later echo.delay)) := by
  obtain ⟨hanswer, hact⟩ := echoes.act node appointment.action
  exact { hact with
    kept := by
      show (appointment.place, (outer.act node appointment.action).1) ::
        (outer.act node appointment.action).2.kept = _
      rw [hanswer, hact.kept]
      rfl }

theorem keepBefore (node : Node σ υ) (time : Nat) (agenda : List (Appointment υ)) :
    ∀ {inner outer : Shift σ υ}, Echoes echo earlier settled inner outer →
      Echoes echo earlier settled (inner.keepBefore node time agenda)
        (outer.keepBefore node (time + echo.delay) (agenda.map (·.later echo.delay))) := by
  induction agenda with
  | nil => exact fun echoes => { echoes with agenda := rfl }
  | cons appointment rest ih =>
      intro inner outer echoes
      have hdue : (appointment.later echo.delay).time < time + echo.delay ↔
          appointment.time < time := Nat.add_lt_add_iff_right
      rw [List.map_cons]
      unfold Shift.keepBefore
      by_cases hbefore : appointment.time < time
      · rw [if_pos hbefore, if_pos (hdue.mpr hbefore)]
        exact ih (echoes.keep node appointment)
      · rw [if_neg hbefore, if_neg (mt hdue.mp hbefore)]
        exact { echoes with agenda := rfl }

theorem passUntil (echoes : Echoes echo earlier settled inner outer) (node : Node σ υ)
    (time : Nat) :
    Echoes echo earlier settled (inner.passUntil node time)
      (outer.passUntil node (time + echo.delay)) := by
  unfold Shift.passUntil
  rw [echoes.agenda]
  exact { keepBefore node time inner.agenda echoes with time := rfl }

/-! ## Telling -/

theorem notify (echoes : Echoes echo earlier settled inner outer) (notification : Notification) :
    Echoes echo earlier settled (inner.notify notification) (outer.notify notification) := by
  have hreceived : ∀ (received : List Notification) {inner outer : Shift σ υ},
      Echoes echo earlier settled inner outer →
      Echoes echo earlier settled
        (received.foldl (fun shift received => shift.observe (.notified received)) inner)
        (received.foldl (fun shift received => shift.observe (.notified received)) outer) := by
    intro received
    induction received with
    | nil => exact fun echoes => echoes
    | cons first rest ih => exact fun echoes => ih (echoes.observe (.notified first))
  unfold Shift.notify
  rw [echoes.watcher]
  exact (hreceived _ echoes).write _

theorem spawn (echoes : Echoes echo earlier settled inner outer) (tasks : List Task) :
    Echoes echo earlier settled (inner.spawn tasks) (outer.spawn tasks) :=
  { echoes with
    watcher := congrArg (fun watcher => { watcher with tasks := watcher.tasks ++ tasks })
      echoes.watcher }

theorem announce (echoes : Echoes echo earlier settled inner outer) (number : String)
    (subscribers : List String) :
    Echoes echo earlier settled (inner.announce number subscribers)
      (outer.announce number subscribers) := by
  have hannounced := echoes.observe (.announced number inner.cache)
  unfold Shift.announce
  simp only [Shift.observe, echoes.cache] at hannounced ⊢
  cases inner.cache.block number with
  | error failure => exact hannounced.write _
  | ok block => exact (hannounced.write _).spawn _

theorem runQueued (echoes : Echoes echo earlier settled inner outer) :
    Echoes echo earlier settled inner.runQueued outer.runQueued := by
  have hrun : ∀ (tasks : List Task) {inner outer : Shift σ υ},
      Echoes echo earlier settled inner outer →
      Echoes echo earlier settled (tasks.foldl runTask inner) (tasks.foldl runTask outer) := by
    intro tasks
    induction tasks with
    | nil => exact fun echoes => echoes
    | cons task rest ih =>
        intro inner outer echoes
        cases task with
        | announce number subscribers => exact ih (echoes.announce number subscribers)
        | deliver notification => exact ih (echoes.notify notification)
  have hqueued : outer.watcher.tasks = inner.watcher.tasks := by
    rw [echoes.watcher]
    rfl
  unfold Shift.runQueued
  rw [hqueued]
  exact hrun _ { echoes with
    watcher := congrArg (fun watcher => { watcher with tasks := [] }) echoes.watcher }

theorem settle (echoes : Echoes echo earlier settled inner outer) :
    Echoes echo earlier settled inner.settle outer.settle := echoes.runQueued.runQueued

/-! ## Ticks -/

theorem snapshot (echoes : Echoes echo earlier settled inner outer) :
    outer.snapshot = echo.snapshot inner.snapshot := by
  rw [Shift.snapshot, echoes.time, echoes.watcher, echoes.cache]
  rfl

/-- Echoes are preserved by everything that an errand is made of. -/
theorem likeness (echo : Echo) (earlier : List Event)
    (settled : List (Nat × Except Failure Cache.Answer)) (node : Node σ υ) :
    Likeness node echo.delay (Echoes echo earlier settled) where
  time echoes := echoes.time
  state echoes := echoes.node
  block echoes number := by rw [echoes.cache]
  transactions echoes := by rw [echoes.cache]
  candidate echoes := by rw [echoes.watcher, echoes.cache, echo.candidate]
  passUntil echoes := echoes.passUntil node
  asked echoes ask := echoes.observeNow (.asked · ask) fun _ => rfl
  answered echoes ask answer := echoes.observeNow (.answered · ask answer) fun _ => rfl
  resolving echoes place hash := echoes.observeNow (.resolving · place hash) fun _ => rfl
  observed echoes result := echoes.observe (.observed result)
  attempted {begun _ inner _} began echoes result := by
    rw [began.snapshot, echoes.snapshot]
    exact echoes.observe (.attempted begun.snapshot inner.snapshot result)
  write := write
  turn echoes state := { echoes with node := rfl }
  addBlock echoes number block := { echoes with cache := by rw [echoes.cache] }
  addTransaction echoes transaction := { echoes with cache := by rw [echoes.cache] }
  hear echoes head := { echoes with watcher := by rw [echo.watcher_latest, ← echoes.watcher] }
  mark {inner outer} echoes number := by
    cases hmarked : inner.cache.markProcessed number with
    | error failure => exact Or.inl ⟨failure, rfl, by rw [echoes.cache, hmarked]⟩
    | ok cache =>
        refine Or.inr ⟨cache, cache, rfl, by rw [echoes.cache, hmarked], ?_⟩
        exact { echoes with
          cache := rfl
          watcher := by rw [echo.watcher_current, ← echoes.watcher] }
  announce began echoes number := by
    rw [began.watcher]
    exact echoes.spawn _

theorem tick (echoes : Echoes echo earlier settled inner outer) (node : Node σ υ) (pace : Pace) :
    Echoes echo earlier settled (inner.tick node pace) (outer.tick node pace) :=
  (likeness echo earlier settled node).tick echoes pace

end Echoes

end Shift

end BlockWatch
