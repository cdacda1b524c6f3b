import BlockWatch.Proofs.Session.Run
import BlockWatch.Proofs.Shift.Echo

/-!
# Closing while no loop runs

Normative source: SPEC_FULL.md, section 4.3:

    **Close()**: cancels the running poll loop if one is active; safe to call multiple times or
    before `Listen` starts (no-op in both cases).

Closing a watcher between its steps takes from it the handle of a loop, and nothing else
(`released`).  Nothing that a watcher does depends on that handle, and a loop that is started puts
its own in its place.  So a run and the run without the closings of a watcher stay apart by the
handle only (`play_released_apart`), and a loop after the two goes the same (`step_listen_congr`).

The proof is a simulation: `step_released` shows for every step that it does to a released session
what it does to the session, and the relation between shifts is `Shift.Echoes` of
`Proofs.Shift.Echo`.
-/

set_option autoImplicit false

namespace BlockWatch

variable {σ υ : Type}

/-! ## What is left of an agenda -/

namespace Shift.Echoes

variable {echo : Echo} {earlier : List Event}
  {settled : List (Nat × Except Failure Cache.Answer)} {inner outer : Shift σ υ}

theorem keepLeft (echoes : Echoes echo earlier settled inner outer) (node : Node σ υ)
    (appointment : Appointment υ) :
    Echoes echo earlier settled (Session.keepLeft node inner appointment)
      (Session.keepLeft node outer (appointment.later echo.delay)) := by
  have hdue : outer.time < (appointment.later echo.delay).time ↔ inner.time < appointment.time := by
    rw [echoes.time]
    exact Nat.add_lt_add_iff_right
  unfold Session.keepLeft
  by_cases hlater : inner.time < appointment.time
  · rw [if_pos hlater, if_pos (hdue.mpr hlater)]
    exact echoes.settle.keep node appointment
  · rw [if_neg hlater, if_neg (mt hdue.mp hlater)]
    exact echoes.keep node appointment

theorem keepAllLeft (node : Node σ υ) (agenda : List (Appointment υ)) :
    ∀ {inner outer : Shift σ υ}, Echoes echo earlier settled inner outer →
      Echoes echo earlier settled (agenda.foldl (Session.keepLeft node) inner)
        ((agenda.map (·.later echo.delay)).foldl (Session.keepLeft node) outer) := by
  induction agenda with
  | nil => exact fun echoes => echoes
  | cons appointment rest ih => exact fun echoes => ih (echoes.keepLeft node appointment)

theorem finish (echoes : Echoes echo earlier settled inner outer) (node : Node σ υ) :
    Echoes echo earlier settled (Session.finish node inner) (Session.finish node outer) := by
  have hbegun : Echoes echo earlier settled ({ inner with agenda := [], loop := none } : Shift σ υ)
      ({ outer with agenda := [], loop := none } : Shift σ υ) := { echoes with agenda := rfl }
  unfold Session.finish Session.leave
  rw [echoes.agenda]
  exact (keepAllLeft node inner.agenda hbegun).settle

end Shift.Echoes

/-- The step closes the watcher at a place at once. -/
def Step.closes (place : Nat) : Step υ → Bool
  | .act other .close => other = place
  | _ => false

theorem Step.eq_of_closes {place : Nat} {step : Step υ} (h : step.closes place = true) :
    step = .act place .close := by
  cases step with
  | work other errand meanwhile => cases h
  | act other action =>
      cases action with
      | close =>
          obtain rfl : other = place := of_decide_eq_true h
          rfl
      | _ => cases h

namespace Session

/-! ## Released watchers -/

/-- The session with nothing in the hands of the watcher at a place. -/
def released (place : Nat) (session : Session σ) : Session σ :=
  { session with watchers := session.watchers.modify place Echo.released.watcher }

theorem released_watchers_self (place : Nat) (session : Session σ) :
    (session.released place).watchers[place]? =
      session.watchers[place]?.map Echo.released.watcher := by
  simp [released]

theorem released_watchers_ne {place other : Nat} (h : other ≠ place) (session : Session σ) :
    (session.released place).watchers[other]? = session.watchers[other]? := by
  simp [released, h.symm]

theorem released_of_absent {place : Nat} {session : Session σ}
    (absent : session.watchers[place]? = none) : session.released place = session := by
  have hsame : session.watchers.modify place Echo.released.watcher = session.watchers := by
    apply List.ext_getElem?
    intro i
    by_cases h : place = i
    · subst h
      simp [absent]
    · simp [h]
  simp only [released, hsame]

theorem absorb_released (place : Nat) (session : Session σ) (last : Shift σ υ) :
    (session.released place).absorb place last = session.absorb place last := by
  have hset : (session.watchers.modify place Echo.released.watcher).set place last.watcher =
      session.watchers.set place last.watcher := by
    apply List.ext_getElem?
    intro i
    by_cases h : place = i <;> simp [List.getElem?_set, h]
  simp only [absorb, released, hset]

theorem released_absorb {place : Nat} (session : Session σ) {last last' : Shift σ υ}
    {earlier : List Event} {settled : List (Nat × Except Failure Cache.Answer)}
    (echoes : Shift.Echoes .released earlier settled last last') :
    session.absorb place last' = (session.absorb place last).released place := by
  have hset : session.watchers.set place last'.watcher =
      (session.watchers.set place last.watcher).modify place Echo.released.watcher := by
    rw [echoes.watcher]
    apply List.ext_getElem?
    intro i
    by_cases h : place = i <;> simp [List.getElem?_set, h]
  simp only [absorb, released, hset, echoes.node, echoes.cache]

theorem absorb_released_ne {place other : Nat} (h : other ≠ place) (session : Session σ)
    (last : Shift σ υ) :
    (session.released place).absorb other last = (session.absorb other last).released place := by
  have hset : (session.watchers.modify place Echo.released.watcher).set other last.watcher =
      (session.watchers.set other last.watcher).modify place Echo.released.watcher := by
    apply List.ext_getElem?
    intro i
    by_cases hother : other = i
    · subst hother
      simp [List.getElem?_set, h.symm]
    · by_cases hplace : place = i <;> simp [hother, hplace]
  simp only [absorb, released, hset]

/-! ## Steps -/

/-- A released watcher starts work that echoes its own. -/
theorem echoes_released (session : Session σ) (watcher : Watcher) (agenda : List (Appointment υ)) :
    Shift.Echoes .released [] []
      { node := session.node, cache := session.cache, watcher, agenda }
      { node := session.node, cache := session.cache, watcher := Echo.released.watcher watcher
        agenda } :=
  { time := rfl, node := rfl, cache := rfl, watcher := rfl, kept := rfl, history := rfl
    agenda := (List.map_id agenda).symm }

theorem step_close_released (node : Node σ υ) (session : Session σ) (place : Nat) :
    (session.step node (.act place .close)).2.released place = session.released place := by
  cases hwatcher : session.watchers[place]? with
  | none => simp only [step, take, hwatcher]
  | some watcher =>
      have hclosed : ∃ stopped, ({ node := session.node, cache := session.cache, watcher } :
          Shift σ υ).close = { node := session.node, cache := session.cache, stopped
                               watcher := { watcher with handle := none } } :=
        Shift.close_eq _
      obtain ⟨stopped, hclosed⟩ := hclosed
      have hset : (session.watchers.set place { watcher with handle := none }).modify place
          Echo.released.watcher = session.watchers.modify place Echo.released.watcher := by
        obtain ⟨hbound, hplace⟩ := List.getElem?_eq_some_iff.mp hwatcher
        apply List.ext_getElem?
        intro i
        by_cases h : place = i
        · subst h
          simp [hbound, hplace, Echo.watcher, Echo.released]
        · simp [h]
      simp only [step, take, hwatcher, Shift.act, hclosed, absorb, released, hset]

theorem step_listen_released (node : Node σ υ) (session : Session σ) (place : Nat)
    (cancelled : Bool) (meanwhile : List (Nat × Action υ)) :
    (session.released place).step node (.work place (.listen cancelled) meanwhile) =
      session.step node (.work place (.listen cancelled) meanwhile) := by
  cases hwatcher : session.watchers[place]? with
  | none => rw [released_of_absent hwatcher]
  | some watcher =>
      have hreleased := session.released_watchers_self place
      rw [hwatcher] at hreleased
      simp only [step, take, hwatcher, hreleased, Option.map_some, absorb_released]
      rfl

/-- Any other step has the same report and preserves the relation. -/
theorem step_released (node : Node σ υ) (session : Session σ) (place : Nat) {step : Step υ}
    (brief : ∀ cancelled meanwhile, step ≠ .work place (.listen cancelled) meanwhile) :
    ((session.released place).step node step).2 = (session.step node step).2.released place := by
  by_cases hplace : step.watcher = place
  · have hreleased := session.released_watchers_self place
    cases hwatcher : session.watchers[place]? with
    | none =>
        rw [hwatcher] at hreleased
        have habsent : session.watchers[step.watcher]? = none := hplace.symm ▸ hwatcher
        have habsent' : (session.released place).watchers[step.watcher]? = none :=
          hplace.symm ▸ hreleased
        rw [step_of_absent node habsent, step_of_absent node habsent']
    | some watcher =>
        rw [hwatcher] at hreleased
        cases step with
        | act other action =>
            obtain rfl : other = place := hplace
            obtain ⟨hanswer, hacted⟩ := (echoes_released session watcher []).act node action
            simp only [Session.step, take, hwatcher, hreleased, Option.map_some, absorb_released]
            exact released_absorb session hacted
        | work other errand meanwhile =>
            obtain rfl : other = place := hplace
            obtain ⟨-, hran⟩ := (Shift.Echoes.likeness .released [] [] node).run
              (echoes_released session watcher (agendaOf meanwhile)) session.pace
              fun cancelled h => brief cancelled meanwhile (h ▸ rfl)
            simp only [Session.step, take, hwatcher, hreleased, Option.map_some, absorb_released]
            exact released_absorb session (hran.finish node)
  · have hother := released_watchers_ne hplace session
    cases step with
    | act other action =>
        simp only [Step.watcher] at hplace hother
        simp only [Session.step, take, hother]
        cases session.watchers[other]? with
        | none => rfl
        | some watcher => exact absorb_released_ne hplace session _
    | work other errand meanwhile =>
        simp only [Step.watcher] at hplace hother
        simp only [Session.step, take, hother]
        cases session.watchers[other]? with
        | none => rfl
        | some watcher => exact absorb_released_ne hplace session _

/-! ## Runs

Here are sessions that differ in no more than what is in a watcher's hands. -/

/-- A loop of that watcher removes the difference. -/
theorem step_listen_congr (node : Node σ υ) {session apart : Session σ} {place : Nat}
    (h : session.released place = apart.released place) (cancelled : Bool)
    (meanwhile : List (Nat × Action υ)) :
    session.step node (.work place (.listen cancelled) meanwhile) =
      apart.step node (.work place (.listen cancelled) meanwhile) := by
  rw [← step_listen_released, h, step_listen_released]

theorem step_released_congr (node : Node σ υ) {session apart : Session σ} {place : Nat}
    (h : session.released place = apart.released place) (step : Step υ) :
    (session.step node step).2.released place = (apart.step node step).2.released place := by
  by_cases hlisten : ∃ cancelled meanwhile, step = .work place (.listen cancelled) meanwhile
  · obtain ⟨cancelled, meanwhile, rfl⟩ := hlisten
    rw [step_listen_congr node h]
  · have hbrief : ∀ cancelled meanwhile, step ≠ .work place (.listen cancelled) meanwhile :=
      fun cancelled meanwhile heq => hlisten ⟨cancelled, meanwhile, heq⟩
    rw [← step_released node session place hbrief, h, step_released node apart place hbrief]

/-- Run lemma: without the closings of a watcher a run leads to the same session, its handle apart.
-/
theorem play_released_apart (node : Node σ υ) (place : Nat) (steps : List (Step υ)) :
    ∀ {session apart : Session σ}, session.released place = apart.released place →
      (session.play node steps).2.released place =
        (apart.play node (steps.filter fun step => !step.closes place)).2.released place := by
  induction steps with
  | nil => exact fun h => h
  | cons step rest ih =>
      intro session apart h
      cases hcloses : step.closes place with
      | true =>
          obtain rfl : step = .act place .close := Step.eq_of_closes hcloses
          rw [List.filter_cons_of_neg (by simp [hcloses])]
          exact ih ((step_close_released node session place).trans h)
      | false =>
          rw [List.filter_cons_of_pos (by simp [hcloses])]
          exact ih (step_released_congr node h step)

end Session

end BlockWatch
