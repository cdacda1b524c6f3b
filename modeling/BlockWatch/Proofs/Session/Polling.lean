import BlockWatch.Proofs.Session.Closing
import BlockWatch.Proofs.Shift.Polling
import Mathlib

/-!
# When a watcher polls

Normative source: SPEC_FULL.md, section 4.3, `Listen`:

    Each iteration: wait `pollInterval`, then run `checkNewBlock` and `processNextBlock`
    synchronously. Because the wait is a fixed delay *after* the previous tick's work completes
    (not a fixed-rate clock), slow ticks self-throttle instead of queuing up.

`listen_polls` is about a loop after any run of new watchers that is told to stop at some time: its
token is cancelled, before it starts or meanwhile, or the watcher is closed.  The loop ends.  It
goes as `Shift.Polls` describes: it rests for the interval, ticks unless it was told to stop, and so
on; each of its ticks does what it would do outside a loop; and closing the watcher before the loop
makes no difference (`Proofs.Session.Closing`).

A timer ends after `Timer.longest` at the latest.  With an interval beyond that a loop ticks before
the interval is over (`listen_ticks_early`), so the interval of `Polls` is the one that timers keep.
-/

set_option autoImplicit false

namespace BlockWatch

variable {σ υ : Type}

namespace Session

/-! ## When a loop is told to stop -/

/-- The time at which a loop is told to stop: at once if it is before it starts, and otherwise when
the first action is done that stops it. -/
def StopsAt (cancelled : Bool) (meanwhile : List (Nat × Action υ)) (c : Nat) : Prop :=
  if cancelled then c = 0
  else
    (∃ action, (c, action) ∈ meanwhile ∧ action.stops = true) ∧
      ∀ time action, (time, action) ∈ meanwhile → action.stops = true → c ≤ time

theorem timed_trans {α : Type} (time : α → Nat) (a b c : α) :
    decide (time a ≤ time b) = true → decide (time b ≤ time c) = true →
      decide (time a ≤ time c) = true := by
  simp only [decide_eq_true_eq]
  exact Nat.le_trans

theorem timed_total {α : Type} (time : α → Nat) (a b : α) :
    (decide (time a ≤ time b) || decide (time b ≤ time a)) = true := by
  simp only [Bool.or_eq_true, decide_eq_true_eq]
  exact Nat.le_total (time a) (time b)

theorem agendaOf_sorted (meanwhile : List (Nat × Action υ)) :
    (agendaOf meanwhile).Pairwise (·.time ≤ ·.time) :=
  (List.pairwise_mergeSort (timed_trans Appointment.time) (timed_total Appointment.time) _).imp
    of_decide_eq_true

/-- The first stop on an agenda is the one arranged for the earliest time. -/
theorem firstStop_agendaOf {meanwhile : List (Nat × Action υ)} {c : Nat}
    (h : StopsAt false meanwhile c) : Shift.firstStop (agendaOf meanwhile) = some c := by
  obtain ⟨⟨action, harranged, hstops⟩, hleast⟩ := h
  obtain ⟨place, hlisted⟩ := mem_agendaOf.mpr harranged
  cases hfirst : Shift.firstStop (agendaOf meanwhile) with
  | none =>
      have hnone : (agendaOf meanwhile).find? (·.action.stops) = none := by
        simpa [Shift.firstStop] using hfirst
      exact absurd hstops (List.find?_eq_none.mp hnone _ hlisted)
  | some first =>
      have hle : first ≤ c :=
        Shift.firstStop_le (agendaOf_sorted meanwhile) hfirst hlisted hstops
      obtain ⟨appointment, hmem, hstop, rfl⟩ := Shift.exists_of_firstStop hfirst
      have hge := hleast _ _ (mem_agendaOf.mp ⟨appointment.place, hmem⟩) hstop
      rw [Nat.le_antisymm hle hge]

/-! ## Loops -/

theorem pace_play (node : Node σ υ) (steps : List (Step υ)) :
    ∀ session : Session σ, (session.play node steps).2.pace = session.pace := by
  induction steps with
  | nil => exact fun _ => rfl
  | cons step rest ih =>
      intro session
      have hstep : (session.step node step).2.pace = session.pace := by
        cases hwatcher : session.watchers[step.watcher]? with
        | none => rw [step_of_absent node hwatcher]
        | some watcher =>
            obtain ⟨-, last, report, hstep, -⟩ := step_told node hwatcher
            rw [hstep]
            rfl
      exact (ih (session.step node step).2).trans hstep

/-- For a loop after any run of new watchers that is told to stop at the time `c`.  It ends, and it
goes as `Shift.Polls` says, with the interval from the settings as far as timers run.  Each of its
ticks, and the tasks that a tick leaves to run, do what they would do in a shift of their own.  The
loop goes as it would if the watcher had never been closed between the steps before. -/
theorem listen_polls (settings : Settings) (node : Node σ υ) (state : σ) (watchers : Nat)
    (steps : List (Step υ)) (place : Nat) {watcher : Watcher}
    (hwatcher : ((new settings state watchers).play node steps).2.watchers[place]? = some watcher)
    (cancelled : Bool) (meanwhile : List (Nat × Action υ)) {c : Nat}
    (hstops : StopsAt cancelled meanwhile c) :
    let session := ((new settings state watchers).play node steps).2
    let unclosed := ((new settings state watchers).play node
      (steps.filter fun step => !step.closes place)).2
    let start : Shift σ υ :=
      { node := session.node, cache := session.cache, watcher, agenda := agendaOf meanwhile }
    let listen : Step υ := .work place (.listen cancelled) meanwhile
    (∃ ticks ended,
      session.step node listen =
          (some ⟨.done, ended.time, (finish node ended).history.reverse,
            answersOf (finish node ended).kept⟩, session.absorb place (finish node ended)) ∧
        Shift.Polls node session.pace c (start.startLoop cancelled) ticks ended ∧
        ∀ began ∈ ticks,
          Shift.Echoes (.late began.time) began.history began.kept
            (began.afresh.tick node session.pace) (began.tick node session.pace) ∧
          Shift.Echoes (.late began.time) began.history began.kept
            (began.afresh.tick node session.pace).settle (began.tick node session.pace).settle) ∧
      session.pace.interval = Timer.span settings.normalized.interval ∧
      session.step node listen = unclosed.step node listen := by
  intro session unclosed start listen
  refine ⟨?_, congrArg Pace.interval (pace_play node steps _),
    step_listen_congr node (play_released_apart node place steps rfl) cancelled meanwhile⟩
  have hstop : cancelled = true ∧ c ≤ start.time ∨
      cancelled = false ∧ Shift.firstStop start.agenda = some c := by
    cases cancelled with
    | true => exact .inl ⟨rfl, Nat.le_of_eq hstops⟩
    | false => exact .inr ⟨rfl, firstStop_agendaOf hstops⟩
  obtain ⟨ticks, ended, hlisten, hpolls⟩ :=
    Shift.polls_listen node session.pace start (agendaOf_sorted meanwhile) hstop
  refine ⟨ticks, ended, ?_, hpolls, fun began hbegan => ?_⟩
  · have hwatcher : session.watchers[place]? = some watcher := hwatcher
    simp only [listen, step, take, hwatcher, run]
    rw [show ({ node := session.node, cache := session.cache, watcher
                agenda := agendaOf meanwhile } : Shift σ υ) = start from rfl, hlisten]
  · have hticked := (Shift.echoes_afresh (hpolls.ahead began hbegan)).tick node session.pace
    exact ⟨hticked, hticked.settle⟩

/-- A node with one block, which takes 10 milliseconds to tell the head. -/
def slowHead : Script where
  head := some "0x1"
  blocks := ⟨[("0x1", ⟨"0xb", []⟩)]⟩
  latency := ⟨[("head", 10)]⟩

/-- A watcher that rests for 10 milliseconds. -/
def hasty : Settings := { interval := 10 }

/-- A loop is told to stop before its first tick, and the watcher is closed after it. -/
def closedLate : List (Step Script.Update) :=
  [.work 0 (.listen false) [(3, .cancel)], .act 0 .close]

/-- The next loop is told to stop while it asks for the head, and ends with that tick. -/
theorem listen_polls_closedLate :
    let session := ((new hasty slowHead 1).play Script.node closedLate).2
    let start : Shift Script Script.Update :=
      { node := session.node, cache := session.cache, watcher := { loops := 1 }
        agenda := agendaOf [(15, .cancel)] }
    let listen : Step Script.Update := .work 0 (.listen false) [(15, .cancel)]
    StopsAt false [(15, (.cancel : Action Script.Update))] 15 ∧
      (∃ ticks ended, ended.time = 20 ∧
        Shift.Polls Script.node session.pace 15 (start.startLoop false) ticks ended) ∧
      session.pace.interval = 10 ∧
      session.step Script.node listen =
        ((new hasty slowHead 1).play Script.node (closedLate.take 1)).2.step Script.node
          listen := by
  intro session start listen
  have hwatcher : session.watchers[0]? = some { loops := 1 } := by cbv
  have hstops : StopsAt false [(15, (.cancel : Action Script.Update))] 15 := by
    simp [StopsAt, Action.stops]
  have helapsed : (session.step Script.node listen).1.map (·.elapsed) = some 20 := by cbv
  obtain ⟨⟨ticks, ended, hstep, hpolls, -⟩, hinterval, hunclosed⟩ :=
    listen_polls hasty Script.node slowHead 1 closedLate 0 hwatcher false [(15, .cancel)] hstops
  rw [hstep] at helapsed
  exact ⟨hstops, ⟨ticks, ended, Option.some.inj helapsed, hpolls⟩, hinterval, hunclosed⟩

/-- A watcher that is to rest for longer than any timer runs. -/
def patient : Settings := { interval := 2000000000000 }

/-- The tick begins when the timer goes off, before the configured interval is over. -/
theorem listen_ticks_early :
    patient.normalized.interval = 2000000000000 ∧
      ((new patient slowHead 1).step Script.node
          (.work 0 (.listen false) [(946080000005, .cancel)])).1.map
        (fun report => (report.asks, report.elapsed)) =
      some ([(946080000000, .head), (946080000010, .block "0x1")], 946080000010) :=
  ⟨rfl, by cbv⟩

end Session

end BlockWatch
