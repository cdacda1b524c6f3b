import BlockWatch.Proofs.Shift.Hush
import BlockWatch.Proofs.Shift.Likeness
import BlockWatch.Proofs.Shift.Polling

/-!
# Shifts that are abreast

Normative source: SPEC_FULL.md, section 1:

    while remaining safely mutable from concurrent callers (new subscriptions arriving while a poll
    is in flight)

Two shifts are abreast (`Abreast`) if they are level, are at the same time, and have the same agenda
when the actions of subscribers are left out of it.  Waiting keeps them abreast, and so do the
single operations of an errand, so `Likeness` carries the relation through a tick
(`Abreast.likeness`) and `Abreast.listen` through a loop, with equal results.

The difficulty is that one of the two has more on its agenda.  `passUntil_outline` compares waiting
with an agenda and waiting with what is left of it, and `restUntil_outline` does so for the rests of
a loop, by induction on the agenda.  Every statement about two agendas is a composition of two of
these.
-/

set_option autoImplicit false

namespace BlockWatch.Shift

variable {σ υ : Type}

/-! ## Shifts of which the same is left -/

/-- The same is left of two shifts, also of what is going to be done, which is in the order of
time. -/
structure Abreast (one other : Shift σ υ) : Prop where
  level : Level one other
  time : other.time = one.time
  agenda : outline other.agenda = outline one.agenda
  sorted : one.agenda.Pairwise (·.time ≤ ·.time)
  sorted' : other.agenda.Pairwise (·.time ≤ ·.time)

namespace Abreast

variable {one other : Shift σ υ}

theorem symm (abreast : Abreast one other) : Abreast other one :=
  ⟨abreast.level.symm, abreast.time.symm, abreast.agenda.symm, abreast.sorted', abreast.sorted⟩

theorem trans {third : Shift σ υ} (first : Abreast one other) (last : Abreast other third) :
    Abreast one third :=
  ⟨first.level.trans last.level, last.time.trans first.time, last.agenda.trans first.agenda,
    first.sorted, last.sorted'⟩

theorem of_outline {agenda : List (Appointment υ)} (sorted : agenda.Pairwise (·.time ≤ ·.time))
    (level : Level one other) (time : other.time = one.time) :
    Abreast { one with agenda } { other with agenda := outline agenda } where
  level := { level with }
  time := time
  agenda := outline_outline agenda
  sorted := sorted
  sorted' := outline_sorted sorted

theorem of_outline_at {agenda : List (Appointment υ)}
    (sorted : agenda.Pairwise (·.time ≤ ·.time)) (level : Level one other) (time : Nat) :
    Abreast { one with agenda, time } { other with agenda := outline agenda, time } := by
  have htimed : Level { one with time } { other with time } := { level with }
  exact of_outline sorted htimed rfl

/-! ### Waiting -/

theorem keepBefore_of_ahead (node : Node σ υ) {time : Nat} (shift : Shift σ υ)
    {agenda : List (Appointment υ)} (ahead : ∀ appointment ∈ agenda, time ≤ appointment.time) :
    shift.keepBefore node time agenda = { shift with agenda } := by
  cases agenda with
  | nil => rfl
  | cons appointment rest =>
      exact if_neg (Nat.not_lt.mpr (ahead appointment List.mem_cons_self))

/-- Waiting on the outline of an agenda is abreast of waiting on the agenda. -/
theorem passUntil_outline (node : Node σ υ) (time : Nat) (agenda : List (Appointment υ)) :
    ∀ {one other : Shift σ υ}, Level one other → agenda.Pairwise (·.time ≤ ·.time) →
      Abreast { one.keepBefore node time agenda with time }
        { other.keepBefore node time (outline agenda) with time } := by
  induction agenda with
  | nil =>
      intro one other level sorted
      have hdone : Abreast { one with agenda := [], time }
          { other with agenda := outline [], time } := of_outline_at sorted level time
      exact hdone
  | cons appointment rest ih =>
      intro one other level sorted
      have hsorted := (List.pairwise_cons.mp sorted).2
      by_cases hbefore : appointment.time < time
      · rw [keepBefore, if_pos hbefore]
        cases h : appointment.action.isForSubscribers with
        | true =>
            rw [outline_cons_of_forSubscribers h]
            exact ih ((Level.keep_forSubscribers node one h).symm.trans level) hsorted
        | false =>
            rw [outline_cons_of_not h, keepBefore, if_pos hbefore]
            exact ih (level.keep node h 0) hsorted
      · have hahead := outline_ahead sorted (Nat.le_of_not_lt hbefore)
        have hdone : Abreast { one with agenda := appointment :: rest, time }
            { other with agenda := outline (appointment :: rest), time } :=
          of_outline_at sorted level time
        rw [keepBefore, if_neg hbefore, keepBefore_of_ahead node other hahead]
        exact hdone

theorem passUntil (abreast : Abreast one other) (node : Node σ υ) (time : Nat) :
    Abreast (one.passUntil node time) (other.passUntil node time) := by
  have hone := passUntil_outline node time one.agenda (Level.refl one) abreast.sorted
  have hother := passUntil_outline node time other.agenda abreast.level.symm abreast.sorted'
  rw [abreast.agenda] at hother
  exact hone.trans hother.symm

theorem restUntil_of_ahead (node : Node σ υ) {time : Nat} {shift : Shift σ υ}
    (going : shift.stopped = false) {agenda : List (Appointment υ)}
    (ahead : ∀ appointment ∈ agenda, time ≤ appointment.time) :
    shift.restUntil node time agenda = { shift with agenda, time } := by
  cases agenda with
  | nil => exact if_neg (by simp [going])
  | cons appointment rest =>
      rw [restUntil, if_neg (by simp [going]),
        if_neg (Nat.not_lt.mpr (ahead appointment List.mem_cons_self))]

/-- Resting on the outline of an agenda is abreast of resting on the agenda.  The clocks may differ
in between: an appointment for a subscriber advances one of them, but not beyond the next
appointment of the outline. -/
theorem restUntil_outline (node : Node σ υ) (time : Nat) (agenda : List (Appointment υ)) :
    ∀ {one other : Shift σ υ}, Level one other → agenda.Pairwise (·.time ≤ ·.time) →
      (one.stopped = true → other.time = one.time) →
      (∀ appointment ∈ agenda,
        max other.time appointment.time = max one.time appointment.time) →
      Abreast (one.restUntil node time agenda) (other.restUntil node time (outline agenda)) := by
  induction agenda with
  | nil =>
      intro one other level sorted hclock _
      cases hstopped : one.stopped with
      | true =>
          rw [restUntil_of_stopped node time hstopped,
            restUntil_of_stopped node time (level.stopped.trans hstopped)]
          exact of_outline sorted level (hclock hstopped)
      | false =>
          rw [restUntil_of_ahead node hstopped (by simp),
            restUntil_of_ahead node (level.stopped.trans hstopped) (by simp [outline])]
          exact of_outline_at sorted level time
  | cons appointment rest ih =>
      intro one other level sorted hclock hnext
      obtain ⟨hle, hsorted⟩ := List.pairwise_cons.mp sorted
      have hnow := hnext appointment List.mem_cons_self
      have hlater : ∀ next ∈ rest, max other.time next.time = max one.time next.time :=
        fun next hmem => hnext next (List.mem_cons_of_mem appointment hmem)
      cases hstopped : one.stopped with
      | true =>
          rw [restUntil_of_stopped node time hstopped,
            restUntil_of_stopped node time (level.stopped.trans hstopped)]
          exact of_outline sorted level (hclock hstopped)
      | false =>
          have hgoing := level.stopped.trans hstopped
          by_cases hbefore : appointment.time < time
          · rw [restUntil_cons node hstopped hbefore]
            cases h : appointment.action.isForSubscribers with
            | true =>
                have hkept := Level.keep_forSubscribers node one h
                have hgoes : (one.keep node appointment).stopped = false :=
                  hkept.stopped.trans hstopped
                rw [outline_cons_of_forSubscribers h]
                refine ih { hkept.symm.trans level with } hsorted ?_ ?_
                · intro hstops
                  rw [hgoes] at hstops
                  cases hstops
                · intro next hmem
                  have hsame := hlater next hmem
                  have horder := hle next hmem
                  show max other.time next.time = max (max one.time appointment.time) next.time
                  omega
            | false =>
                have hdue : ({ appointment with place := 0 } : Appointment υ).time < time := hbefore
                rw [outline_cons_of_not h, restUntil_cons node hgoing hdue]
                refine ih { level.keep node h 0 with } hsorted (fun _ => hnow) ?_
                intro next hmem
                show max (max other.time appointment.time) next.time =
                  max (max one.time appointment.time) next.time
                rw [hnow]
          · have hahead := outline_ahead sorted (Nat.le_of_not_lt hbefore)
            rw [restUntil, if_neg (by simp [hstopped]), if_neg hbefore,
              restUntil_of_ahead node hgoing hahead]
            exact of_outline_at sorted level time

theorem restUntil (abreast : Abreast one other) (node : Node σ υ) (time : Nat) :
    Abreast (one.restUntil node time one.agenda) (other.restUntil node time other.agenda) := by
  have hone := restUntil_outline node time one.agenda (Level.refl one) abreast.sorted
    (fun _ => rfl) fun _ _ => rfl
  have hother := restUntil_outline node time other.agenda abreast.level.symm abreast.sorted'
    (fun _ => abreast.time.symm) fun _ _ => by rw [abreast.time]
  rw [abreast.agenda] at hother
  exact hone.trans hother.symm

/-! ### Ticks and loops -/

theorem of_tidings {shift : Shift σ υ} (sorted : shift.agenda.Pairwise (·.time ≤ ·.time))
    {told : List Event} (tidings : ∀ event ∈ told, event.IsTiding) :
    Abreast shift { shift with history := told ++ shift.history } :=
  ⟨Level.tidings shift tidings, rfl, rfl, sorted, sorted⟩

theorem write (abreast : Abreast one other) (records : List Record) :
    Abreast (one.write records) (other.write records) := by
  rw [write_eq, write_eq]
  exact ((of_tidings abreast.sorted Event.isTiding_of_mem_records).symm.trans abreast).trans
    (of_tidings abreast.sorted' Event.isTiding_of_mem_records)

/-- Tasks have no projection, neither when they are queued nor when they run. -/
theorem spawn (abreast : Abreast one other) (tasks tasks' : List Task) :
    Abreast (one.spawn tasks) (other.spawn tasks') :=
  { abreast with level := { abreast.level with watcher := abreast.level.watcher } }

theorem settle (abreast : Abreast one other) : Abreast one.settle other.settle := by
  have hsettled : ∀ {shift : Shift σ υ}, shift.agenda.Pairwise (·.time ≤ ·.time) →
      Abreast shift shift.settle := by
    intro shift sorted
    obtain ⟨htime, hagenda, -, -⟩ := settle_frame shift
    exact ⟨Level.settle shift, htime, congrArg outline hagenda, sorted, hagenda ▸ sorted⟩
  exact ((hsettled abreast.sorted).symm.trans abreast).trans (hsettled abreast.sorted')

theorem mark (abreast : Abreast one other) (number : String) :
    (∃ failure, one.cache.markProcessed number = .error failure ∧
      other.cache.markProcessed number = .error failure) ∨
    ∃ cache cache', one.cache.markProcessed number = .ok cache ∧
      other.cache.markProcessed number = .ok cache' ∧
      Abreast { one with cache, watcher := { one.watcher with current := some number } }
        { other with
          cache := cache'
          watcher := { other.watcher with current := some number } } := by
  have hmark := Cache.hushed_markProcessed other.cache number
  rw [abreast.level.cache, Cache.hushed_markProcessed] at hmark
  have hcurrent := congrArg (fun watcher => { watcher with current := some number })
    abreast.level.watcher
  cases hone : one.cache.markProcessed number with
  | error failure =>
      rw [hone] at hmark
      cases hother : other.cache.markProcessed number with
      | error failure' =>
          rw [hother] at hmark
          exact Or.inl ⟨failure, rfl, hmark.symm⟩
      | ok cache' =>
          rw [hother] at hmark
          cases hmark
  | ok cache =>
      rw [hone] at hmark
      cases hother : other.cache.markProcessed number with
      | error failure' =>
          rw [hother] at hmark
          cases hmark
      | ok cache' =>
          rw [hother] at hmark
          refine Or.inr ⟨cache, cache', rfl, rfl, ?_⟩
          exact { abreast with
            level := { abreast.level with
              cache := (Except.ok.inj hmark).symm
              watcher := hcurrent } }

/-- Being abreast is preserved by everything that an errand is made of. -/
theorem likeness (node : Node σ υ) : Likeness node 0 (Abreast (σ := σ) (υ := υ)) where
  time abreast := abreast.time
  state abreast := abreast.level.node
  block abreast := abreast.level.block
  transactions abreast := abreast.level.transactions
  candidate abreast := abreast.level.candidate
  passUntil abreast := abreast.passUntil node
  asked abreast ask := { abreast with level := abreast.level.observe (by rw [abreast.time]) }
  answered abreast ask answer :=
    { abreast with level := abreast.level.observe (by rw [abreast.time]) }
  resolving abreast place hash :=
    { abreast with level := abreast.level.observe (by rw [abreast.time]) }
  observed abreast result := { abreast with level := abreast.level.observe rfl }
  attempted began abreast result :=
    { abreast with
      level := abreast.level.observe (by
        simp only [Event.hushed?, began.level.snapshot began.time,
          abreast.level.snapshot abreast.time]) }
  write := write
  turn abreast state := { abreast with level := { abreast.level with node := rfl } }
  addBlock abreast number block :=
    { abreast with
      level := { abreast.level with
        cache := congrArg (Cache.addBlock · number block) abreast.level.cache } }
  addTransaction abreast transaction :=
    { abreast with
      level := { abreast.level with
        cache := congrArg (Cache.addTransaction · transaction) abreast.level.cache } }
  hear abreast head :=
    { abreast with
      level := { abreast.level with
        watcher := congrArg (fun watcher => { watcher with latest := some head })
          abreast.level.watcher } }
  mark := mark
  announce _ abreast _ := abreast.spawn _ _

theorem rest (abreast : Abreast one other) (node : Node σ υ) (time : Nat) :
    Abreast (one.rest node time) (other.rest node time) := by
  unfold Shift.rest
  rw [abreast.level.stopped]
  split
  · exact abreast
  · exact abreast.settle.restUntil node time

theorem startLoop (abreast : Abreast one other) (cancelled : Bool) :
    Abreast (one.startLoop cancelled) (other.startLoop cancelled) := by
  have hwatcher := congrArg
    (fun watcher => { watcher with loops := watcher.loops + 1, handle := some watcher.loops })
    abreast.level.watcher
  exact { abreast with
    level := { abreast.level with
      watcher := hwatcher
      loop := congrArg some abreast.level.loops
      stopped := rfl } }

theorem loopFor (node : Node σ υ) (pace : Pace) (ticks : Nat) :
    ∀ {one other : Shift σ υ}, Abreast one other →
      (other.loopFor node pace ticks).1 = (one.loopFor node pace ticks).1 ∧
        Abreast (one.loopFor node pace ticks).2 (other.loopFor node pace ticks).2 := by
  induction ticks with
  | zero => exact fun abreast => ⟨rfl, abreast⟩
  | succ ticks ih =>
      intro one other abreast
      have hrested := abreast.rest node (one.time + pace.interval)
      unfold Shift.loopFor
      rw [abreast.time]
      dsimp only
      rw [hrested.level.stopped]
      split
      · exact ⟨rfl, hrested⟩
      · exact ih ((likeness node).tick hrested pace)

end Abreast

theorem loopFor_of_ended (node : Node σ υ) (pace : Pace) (ticks further : Nat) :
    ∀ {shift last : Shift σ υ}, shift.loopFor node pace ticks = (true, last) →
      shift.loopFor node pace (ticks + further) = (true, last) := by
  induction ticks with
  | zero =>
      intro shift last h
      cases h
  | succ ticks ih =>
      intro shift last h
      rw [Nat.succ_add]
      unfold loopFor at h ⊢
      dsimp only at h ⊢
      split at h
      · rename_i hstopped
        rw [if_pos hstopped, h]
      · rename_i hgoing
        rw [if_neg hgoing]
        exact ih h

theorem stops_of_forSubscribers {action : Action υ} (h : action.isForSubscribers = true) :
    action.stops = false := by
  cases action with
  | close => cases h
  | cancel => cases h
  | _ => rfl

theorem firstStop_outline (agenda : List (Appointment υ)) :
    firstStop (outline agenda) = firstStop agenda := by
  induction agenda with
  | nil => rfl
  | cons appointment rest ih =>
      cases h : appointment.action.isForSubscribers with
      | true =>
          rw [outline_cons_of_forSubscribers h,
            firstStop_cons_of_not (stops_of_forSubscribers h), ih]
      | false =>
          rw [outline_cons_of_not h]
          cases hstops : appointment.action.stops with
          | true => simp [firstStop, hstops]
          | false =>
              have hleft : ({ appointment with place := 0 } : Appointment υ).action.stops = false :=
                hstops
              rw [firstStop_cons_of_not hstops, firstStop_cons_of_not hleft, ih]

/-- A loop ends on both sides or on neither, and leaves them abreast if it ends. -/
theorem Abreast.listen {one other : Shift σ υ} (abreast : Abreast one other) (node : Node σ υ)
    (pace : Pace) (cancelled : Bool) :
    (other.listen node pace cancelled).1 = (one.listen node pace cancelled).1 ∧
      ((one.listen node pace cancelled).1 = true →
        Abreast (one.listen node pace cancelled).2 (other.listen node pace cancelled).2) := by
  have hfirst : firstStop other.agenda = firstStop one.agenda := by
    rw [← firstStop_outline, abreast.agenda, firstStop_outline]
  have hsame : (other.listen node pace cancelled).1 = (one.listen node pace cancelled).1 := by
    rw [Bool.eq_iff_iff, listen_ends_iff node pace abreast.sorted' cancelled,
      listen_ends_iff node pace abreast.sorted cancelled, hfirst]
  refine ⟨hsame, fun hends => ?_⟩
  -- both have ended when they are followed for as long as the two together
  have hone := loopFor_of_ended node pace _ (horizon other.agenda + 2) (Prod.ext hends rfl)
  have hother := loopFor_of_ended node pace _ (horizon one.agenda + 2)
    (Prod.ext (hsame.trans hends) rfl)
  rw [Nat.add_comm] at hother
  obtain ⟨-, hloops⟩ := loopFor node pace (horizon one.agenda + 2 + (horizon other.agenda + 2))
    (abreast.startLoop cancelled)
  rw [hone, hother] at hloops
  exact hloops

end BlockWatch.Shift
