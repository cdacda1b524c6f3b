import BlockWatch.Proofs.Session.Run

/-!
# Courses of turns

Normative source: SPEC_FULL.md, section 4.3, step 9 of `processNextBlock`:

    Asynchronously (non-blocking to the poll loop) invoke
    `notifyForBlock(nextBlockNumber, subscriptionSnapshot)`.

A caller takes turns (`Session.Turn`): it does one step after the other without waiting for the
tasks that a step has queued, or it waits, and then the tasks of a watcher run.  Every turn is made
of strides of its watcher (`strides_turn`), so what strides preserve holds through a course of turns
just as it does through a run.  A run is the course in which the caller waits after all work
(`play_eq_course`).

In a course tasks run at a `Turn.wait` only, or while a loop rests.  A caller that goes on to ask
the node waits while it does; this is a `Turn.wait` before the step, because nothing in a step
changes the cache before its first question.
-/

set_option autoImplicit false

namespace BlockWatch.Session

variable {σ υ : Type}

/-! ## Turns -/

/-- The watcher that a turn is about. -/
def Turn.watcher : Turn υ → Nat
  | .go step => step.watcher
  | .wait place => place

/-- What is done to the watcher in a turn. -/
def Turn.actions : Turn υ → List (Action υ)
  | .go step => step.actions
  | .wait _ => []

/-- A turn is made of strides of its watcher. -/
theorem strides_turn (node : Node σ υ) : Strides node (turn node) Turn.watcher Turn.actions where
  absent {session a} h := by
    cases a with
    | go step => exact take_of_absent node (leave node) h
    | wait place =>
        simp only [Turn.watcher] at h
        simp only [turn, h]
  present {session a watcher} h := by
    cases a with
    | go step => exact take_of_present node (leave_agenda node) (Shift.beats_leave node) h
    | wait place =>
        simp only [Turn.watcher] at h
        let start : Shift σ υ := { node := session.node, cache := session.cache, watcher }
        refine ⟨start, start.settle, ⟨.done, 0, start.settle.history.reverse, []⟩, ?_, rfl, rfl,
          rfl, rfl, fun appointment hmem => absurd hmem List.not_mem_nil, .single .settle⟩
        simp only [turn, h]
        rfl

/-! ## Courses -/

/-- Take turns one after the other: the reports, each with the watcher that it is about, and the
session after all of them. -/
def course (node : Node σ υ) (session : Session σ) (turns : List (Turn υ)) :
    List (Nat × Report) × Session σ :=
  session.follow (turn node) Turn.watcher turns

theorem course_append (node : Node σ υ) (early late : List (Turn υ)) :
    ∀ session : Session σ, session.course node (early ++ late) =
      ((session.course node early).1 ++ ((session.course node early).2.course node late).1,
        ((session.course node early).2.course node late).2) := by
  induction early with
  | nil => exact fun _ => rfl
  | cons turn rest ih =>
      intro session
      have hrest := ih (session.turn node turn).2
      simp only [course] at hrest
      simp only [List.cons_append, course, follow, hrest, List.append_assoc]

/-- A caller that waits observes what the queue comes to. -/
theorem course_wait (node : Node σ υ) {session : Session σ} {place : Nat} {watcher : Watcher}
    (present : session.watchers[place]? = some watcher) :
    (session.course node [.wait place]).1 =
      [(place, ⟨.done, 0, watcher.tidings session.cache, []⟩)] := by
  simp only [course, follow, turn, present, Shift.settle_eq, List.append_nil, List.reverse_reverse]
  rfl

/-! ## Runs among courses -/

/-- The turns of a step in a run: after work the caller waits. -/
def turnsOf : Step υ → List (Turn υ)
  | .act place action => [.go (.act place action)]
  | .work place errand meanwhile => [.go (.work place errand meanwhile), .wait place]

theorem turn_wait_absorb (node : Node σ υ) {session : Session σ} {place : Nat} {watcher : Watcher}
    (present : session.watchers[place]? = some watcher) (left : Shift σ υ) :
    (session.absorb place left).turn node (.wait place) =
      (some ⟨.done, 0, left.watcher.tidings left.cache, []⟩,
        session.absorb place left.settle) := by
  have hleft : (session.absorb place left).watchers[place]? = some left.watcher :=
    watchers_absorb_self present left
  simp only [turn, hleft, Shift.settle_eq]
  simp only [absorb, List.append_nil, List.reverse_reverse, List.set_set]

theorem step_eq_course (node : Node σ υ) (session : Session σ) (step : Step υ) (place : Nat) :
    eventsAt place ((session.step node step).1.map fun report => (step.watcher, report)).toList =
        eventsAt place (session.course node (turnsOf step)).1 ∧
      (session.step node step).2 = (session.course node (turnsOf step)).2 := by
  cases step with
  | act other action =>
      simp only [turnsOf, course, follow, turn, Session.step, take]
      cases session.watchers[other]? with
      | none => exact ⟨rfl, trivial⟩
      | some watcher => exact ⟨rfl, trivial⟩
  | work other errand meanwhile =>
      cases hwatcher : session.watchers[other]? with
      | none =>
          simp only [turnsOf, course, follow, turn, Session.step, take, hwatcher]
          exact ⟨rfl, trivial⟩
      | some watcher =>
          rcases hran : run node session.pace
            { node := session.node, cache := session.cache, watcher, agenda := agendaOf meanwhile }
            errand with ⟨outcome, ended⟩
          have hgo : session.turn node (.go (.work other errand meanwhile)) =
              (some ⟨outcome, ended.time, (leave node ended).history.reverse,
                answersOf (leave node ended).kept⟩, session.absorb other (leave node ended)) := by
            simp only [turn, take, hwatcher, hran]
          have hwait := turn_wait_absorb node hwatcher (leave node ended)
          have hstep : session.step node (.work other errand meanwhile) =
              (some ⟨outcome, ended.time, (finish node ended).history.reverse,
                answersOf (finish node ended).kept⟩, session.absorb other (finish node ended)) := by
            simp only [Session.step, take, hwatcher, hran]
          have hevents : (finish node ended).history.reverse = (leave node ended).history.reverse ++
              (leave node ended).watcher.tidings (leave node ended).cache := by
            rw [finish, Shift.settle_eq]
            simp only [List.reverse_append, List.reverse_reverse]
          simp only [turnsOf, course, follow, hgo, hwait, hstep]
          refine ⟨?_, rfl⟩
          by_cases hplace : other = place
          · simp [eventsAt, Turn.watcher, Step.watcher, hplace, hevents]
          · simp [eventsAt, Turn.watcher, Step.watcher, hplace]

/-- A run is the course in which the caller waits after every step of work. -/
theorem play_eq_course (node : Node σ υ) (steps : List (Step υ)) (place : Nat) :
    ∀ session : Session σ,
      eventsAt place (session.play node steps).1 =
          eventsAt place (session.course node (steps.flatMap turnsOf)).1 ∧
        (session.play node steps).2 = (session.course node (steps.flatMap turnsOf)).2 := by
  induction steps with
  | nil => exact fun _ => ⟨rfl, rfl⟩
  | cons step rest ih =>
      intro session
      obtain ⟨hevents, hsession⟩ := step_eq_course node session step place
      obtain ⟨hrest, hlast⟩ := ih (session.step node step).2
      rw [List.flatMap_cons, course_append, eventsAt_append, ← hevents, ← hsession, ← hrest,
        ← hlast, ← eventsAt_append]
      exact ⟨rfl, rfl⟩

end BlockWatch.Session
