import BlockWatch.Proofs.Shift.Actions
import Mathlib.Logic.Relation

/-!
# The phases of work

Normative source: SPEC_FULL.md, section 5:

    Cancellation: checked only at tick boundaries — in-flight batch resolution is not preemptible
    and runs to completion (success or failure) even after cancellation is requested

Work waits and takes note, in turns (`Phase`).  While it waits, what falls due is done; what it
takes note of touches neither the clock nor the agenda nor the loop.  So the agenda is worked off
from its front, nothing on it is done before its time has come, and a loop that is told to stop is
told so by an action that was done (`Heeds`, `Heeds.of_phases`).  Work itself goes on all the same:
whether a loop is told to stop is no condition of any phase.
-/

set_option autoImplicit false

namespace BlockWatch

variable {σ υ : Type}

namespace Shift

/-! ## Phases -/

/-- One phase of work. -/
inductive Phase (node : Node σ υ) : Shift σ υ → Shift σ υ → Prop
  /-- time passes, and what falls due is done -/
  | wait {shift : Shift σ υ} {time : Nat} (later : shift.time ≤ time) :
      Phase node shift (shift.passUntil node time)
  /-- something is learned or written down -/
  | note {shift : Shift σ υ} (state : σ) (cache : Cache) (current latest : Option String)
      (tasks : List Task) (history : List Event) :
      Phase node shift
        { shift with
          node := state, cache, watcher := { shift.watcher with current, latest, tasks }, history }

/-- Any number of phases. -/
abbrev Phases (node : Node σ υ) : Shift σ υ → Shift σ υ → Prop :=
  Relation.ReflTransGen (Phase node)

theorem phase_observe (node : Node σ υ) (shift : Shift σ υ) (event : Event) :
    Phase node shift (shift.observe event) :=
  .note shift.node shift.cache shift.watcher.current shift.watcher.latest shift.watcher.tasks _

theorem phase_write (node : Node σ υ) (shift : Shift σ υ) (records : List Record) :
    Phase node shift (shift.write records) := by
  rw [write_eq]
  exact .note shift.node shift.cache shift.watcher.current shift.watcher.latest
    shift.watcher.tasks _

theorem phases_ask (node : Node σ υ) (shift : Shift σ υ) (ask : Ask) :
    Phases node shift (shift.ask node ask).2 := by
  have hwait : Phase node (shift.observe (.asked shift.time ask)) _ :=
    .wait (Nat.le_add_right shift.time (node.latency shift.node ask))
  exact .tail (.tail (.single (phase_observe node shift _)) hwait) (.note _ _ _ _ _ _)

/-! ## Loops that run -/

end Shift

/-- An action that stops a loop. -/
def Action.stops : Action υ → Bool
  | .close | .cancel => true
  | _ => false

namespace Shift

/-- A loop runs in a shift, and it is in the watcher's hands as long as it is not to stop. -/
structure Running (shift : Shift σ υ) (loop : Nat) : Prop where
  running : shift.loop = some loop
  handle : shift.stopped = false → shift.watcher.handle = some loop

/-- A loop stays running, and it is stopped when an action stops it. -/
theorem Running.act {shift : Shift σ υ} {loop : Nat} (running : shift.Running loop)
    (node : Node σ υ) (action : Action υ) :
    (shift.act node action).2.Running loop ∧
      (shift.act node action).2.stopped = (shift.stopped || action.stops) := by
  obtain ⟨hloop, hhandle⟩ := running
  cases action with
  | subscribe address =>
      obtain ⟨records, subscriptions, h, -⟩ := shift.watcher.subscribe_eq shift.cache address
      simp only [Shift.act, h, write_eq]
      exact ⟨⟨hloop, hhandle⟩, (Bool.or_false _).symm⟩
  | unsubscribe address =>
      obtain ⟨result, subscriptions, h⟩ := shift.watcher.unsubscribe_eq shift.cache address
      simp only [Shift.act, h]
      exact ⟨⟨hloop, hhandle⟩, (Bool.or_false _).symm⟩
  | node update => exact ⟨⟨hloop, hhandle⟩, (Bool.or_false _).symm⟩
  | cache call => exact ⟨⟨hloop, hhandle⟩, (Bool.or_false _).symm⟩
  | dropReceiver => exact ⟨⟨hloop, hhandle⟩, (Bool.or_false _).symm⟩
  | cancel =>
      have hstopped : (shift.stopped || shift.loop.isSome) = true := by simp [hloop]
      refine ⟨⟨hloop, fun h => ?_⟩, hstopped.trans (Bool.or_true _).symm⟩
      exact absurd (hstopped.symm.trans h) (by decide)
  | close =>
      cases hheld : shift.watcher.handle with
      | none =>
          have hstopped : shift.stopped = true := by
            rw [← Bool.not_eq_false]
            intro h
            rw [hhandle h] at hheld
            cases hheld
          simp only [Shift.act, Shift.close, hheld]
          exact ⟨⟨hloop, hhandle⟩, by simp [hstopped]⟩
      | some held =>
          have hstopped : (shift.stopped || decide (shift.loop = some held)) = true := by
            cases hbefore : shift.stopped with
            | true => rfl
            | false =>
                rw [hhandle hbefore] at hheld
                rw [hloop, hheld, decide_eq_true rfl, Bool.or_true]
          simp only [Shift.act, Shift.close, hheld]
          refine ⟨⟨hloop, fun h => ?_⟩, hstopped.trans (Bool.or_true _).symm⟩
          exact absurd (hstopped.symm.trans h) (by decide)

/-- From one shift to another the front of the agenda was done, all of it in time, and a loop that
runs has heard of it. -/
structure Heeds (before after : Shift σ υ) (done : List (Appointment υ)) : Prop where
  agenda : before.agenda = done ++ after.agenda
  due : ∀ appointment ∈ done, appointment.time ≤ after.time
  later : before.time ≤ after.time
  running : ∀ loop, before.Running loop → after.Running loop ∧
    after.stopped = (before.stopped || done.any (·.action.stops))

namespace Heeds

theorem refl (shift : Shift σ υ) : Heeds shift shift [] where
  agenda := rfl
  due := by simp
  later := Nat.le_refl _
  running _ running := ⟨running, (Bool.or_false _).symm⟩

theorem trans {before middle after : Shift σ υ} {early late : List (Appointment υ)}
    (first : Heeds before middle early) (last : Heeds middle after late) :
    Heeds before after (early ++ late) where
  agenda := by rw [first.agenda, last.agenda, List.append_assoc]
  due appointment h := by
    rcases List.mem_append.mp h with h | h
    · exact Nat.le_trans (first.due appointment h) last.later
    · exact last.due appointment h
  later := Nat.le_trans first.later last.later
  running loop running := by
    obtain ⟨hmiddle, hearly⟩ := first.running loop running
    obtain ⟨hafter, hlate⟩ := last.running loop hmiddle
    exact ⟨hafter, by rw [hlate, hearly, List.any_append, Bool.or_assoc]⟩

theorem set_time (shift : Shift σ υ) {time : Nat} (later : shift.time ≤ time) :
    Heeds shift { shift with time } [] where
  agenda := rfl
  due := by simp
  later := later
  running _ running := ⟨⟨running.running, running.handle⟩, (Bool.or_false _).symm⟩

theorem keep (node : Node σ υ) (shift : Shift σ υ) (appointment : Appointment υ)
    (rest : List (Appointment υ)) {start time : Nat} (later : start ≤ time)
    (due : appointment.time ≤ time) :
    Heeds { shift with agenda := appointment :: rest, time := start }
      { shift.keep node appointment with agenda := rest, time } [appointment] where
  agenda := rfl
  due other h := List.mem_singleton.mp h ▸ due
  later := later
  running loop running := by
    have hbefore : shift.Running loop := ⟨running.running, running.handle⟩
    obtain ⟨⟨hloop, hhandle⟩, hstopped⟩ := hbefore.act node appointment.action
    refine ⟨⟨hloop, hhandle⟩, ?_⟩
    rw [List.any_cons, List.any_nil, Bool.or_false]
    exact hstopped

/-- What falls due while time passes is done in time. -/
theorem passUntil (node : Node σ υ) {time : Nat} {shift : Shift σ υ} (later : shift.time ≤ time) :
    ∃ done, Heeds shift (shift.passUntil node time) done := by
  -- the clock is set in the end, so it does not matter what it shows before
  have hkept : ∀ (agenda : List (Appointment υ)) (shift : Shift σ υ) (start : Nat), start ≤ time →
      ∃ done, Heeds { shift with agenda, time := start }
        { shift.keepBefore node time agenda with time } done := by
    intro agenda
    induction agenda with
    | nil =>
        intro shift start hstart
        exact ⟨[], set_time { shift with agenda := [], time := start } hstart⟩
    | cons appointment rest ih =>
        intro shift start hstart
        unfold keepBefore
        split
        · rename_i hbefore
          obtain ⟨done, hrest⟩ := ih (shift.keep node appointment) time (Nat.le_refl _)
          exact ⟨_, (keep node shift appointment rest hstart (Nat.le_of_lt hbefore)).trans hrest⟩
        · exact ⟨[], set_time { shift with agenda := appointment :: rest, time := start } hstart⟩
  exact hkept shift.agenda shift shift.time later

theorem of_phase {node : Node σ υ} {shift after : Shift σ υ} (phase : Phase node shift after) :
    ∃ done, Heeds shift after done := by
  cases phase with
  | note state cache current latest tasks history =>
      exact ⟨[], rfl, by simp, Nat.le_refl _,
        fun _ running => ⟨⟨running.running, running.handle⟩, (Bool.or_false _).symm⟩⟩
  | wait later => exact passUntil node later

theorem of_phases {node : Node σ υ} {start last : Shift σ υ} (phases : Phases node start last) :
    ∃ done, Heeds start last done := by
  induction phases with
  | refl => exact ⟨[], refl start⟩
  | tail _ phase ih =>
      obtain ⟨early, first⟩ := ih
      obtain ⟨late, last⟩ := of_phase phase
      exact ⟨early ++ late, first.trans last⟩

end Heeds

end Shift

end BlockWatch
