import BlockWatch.Proofs.Shift.Strides
import BlockWatch.Session

/-!
# Runs of a session

Normative source: SPEC_FULL.md, section 5:

    one long-lived background task (`Listen`) drives the sequential state machine

A run takes steps one after the other (`play`).  A step is made of strides of its own watcher,
leaves the other watchers as they are, and lets the cache that they share grow (`strides_of_step`).
So what the strides of one watcher preserve, and what more knowledge in the cache cannot break,
holds of that watcher after every run: `play_invariant` is the induction, once for all safety
properties, and `play_new` starts it with new watchers.

Courses of turns have the same property, so the induction is over anything that goes on in strides
(`Session.Strides`), and runs and courses are two instances of it.
-/

set_option autoImplicit false

namespace BlockWatch

variable {σ υ : Type}

/-! ## Steps -/

/-- The watcher that takes a step. -/
def Step.watcher : Step υ → Nat
  | .act place _ => place
  | .work place _ _ => place

/-- What is done to the watcher in a step, at once or while it works. -/
def Step.actions : Step υ → List (Action υ)
  | .act _ action => [action]
  | .work _ _ meanwhile => meanwhile.map (·.2)

/-- What is done to the watcher in a step, in the order in which it is done. -/
def Step.schedule : Step υ → List (Action υ)
  | .act _ action => [action]
  | .work _ _ meanwhile => (agendaOf meanwhile).map (·.action)

theorem mem_agendaOf {meanwhile : List (Nat × Action υ)} {time : Nat} {action : Action υ} :
    (∃ place, ⟨place, time, action⟩ ∈ agendaOf meanwhile) ↔ (time, action) ∈ meanwhile := by
  unfold agendaOf
  constructor
  · rintro ⟨place, h⟩
    rw [List.mem_mergeSort] at h
    obtain ⟨⟨arranged, place⟩, hplace, happointment⟩ := List.mem_map.mp h
    cases happointment
    exact List.fst_mem_of_mem_zipIdx hplace
  · intro h
    obtain ⟨place, hbound, hplace⟩ := List.mem_iff_getElem.mp h
    refine ⟨place, List.mem_mergeSort.mpr (List.mem_map.mpr ⟨((time, action), place), ?_, rfl⟩)⟩
    rw [List.mk_mem_zipIdx_iff_getElem?, List.getElem?_eq_getElem hbound, hplace]

theorem Step.mem_actions_of_mem_schedule {step : Step υ} {action : Action υ}
    (h : action ∈ step.schedule) : action ∈ step.actions := by
  cases step with
  | act place action => exact h
  | work place errand meanwhile =>
      obtain ⟨appointment, hmem, rfl⟩ := List.mem_map.mp h
      exact List.mem_map.mpr ⟨_, mem_agendaOf.mp ⟨appointment.place, hmem⟩, rfl⟩

/-- A step in which the watcher does nothing itself but tick. -/
def Step.OnlyTicks : Step υ → Prop
  | .act _ _ => True
  | .work _ errand _ => errand.OnlyTicks

/-- Everything that was observed, of all watchers. -/
def allEvents (reports : List (Nat × Report)) : List Event := reports.flatMap (·.2.events)

theorem allEvents_append (early late : List (Nat × Report)) :
    allEvents (early ++ late) = allEvents early ++ allEvents late := List.flatMap_append

namespace Session

theorem take_of_absent (node : Node σ υ) (ending : Shift σ υ → Shift σ υ) {session : Session σ}
    {step : Step υ} (h : session.watchers[step.watcher]? = none) :
    session.take node ending step = (none, session) := by
  cases step with
  | act place action =>
      simp only [Step.watcher] at h
      simp only [take, h]
  | work place errand meanwhile =>
      simp only [Step.watcher] at h
      simp only [take, h]

theorem step_of_absent (node : Node σ υ) {session : Session σ} {step : Step υ}
    (h : session.watchers[step.watcher]? = none) : session.step node step = (none, session) :=
  take_of_absent node (finish node) h

theorem leave_agenda (node : Node σ υ) (shift : Shift σ υ) : (leave node shift).agenda = [] := by
  have hkept : ∀ (shift : Shift σ υ) (appointment : Appointment υ), shift.agenda = [] →
      (shift.keep node appointment).agenda = [] := by
    intro shift appointment h
    have hsame := Shift.act_agenda node shift [] appointment.action
    rw [show { shift with agenda := [] } = shift by rw [← h]] at hsame
    exact congrArg (·.2.agenda) hsame
  have hall : ∀ (agenda : List (Appointment υ)) (shift : Shift σ υ), shift.agenda = [] →
      (agenda.foldl (keepLeft node) shift).agenda = [] := by
    intro agenda
    induction agenda with
    | nil => exact fun _ h => h
    | cons appointment rest ih =>
        intro shift h
        apply ih
        unfold keepLeft
        split
        · exact hkept _ appointment (by rw [Shift.settle_eq]; exact h)
        · exact hkept shift appointment h
  exact hall shift.agenda _ rfl

theorem finish_agenda (node : Node σ υ) (shift : Shift σ υ) : (finish node shift).agenda = [] := by
  rw [finish, Shift.settle_eq]
  exact leave_agenda node shift

/-- A step is made of legs of its watcher, works off its whole schedule, and reports everything that
was observed.  If the watcher only ticks, the legs are beats. -/
theorem take_told (node : Node σ υ) {ending : Shift σ υ → Shift σ υ}
    (agenda : ∀ shift, (ending shift).agenda = [])
    (beats : ∀ pace shift, Shift.Beats node pace shift (ending shift)) {session : Session σ}
    {step : Step υ} {watcher : Watcher} (h : session.watchers[step.watcher]? = some watcher) :
    ∃ agenda, ∃ last : Shift σ υ, ∃ report : Report,
      session.take node ending step = (some report, session.absorb step.watcher last) ∧
        report.events = last.history.reverse ∧ agenda.map (·.action) = step.schedule ∧
        last.agenda = [] ∧
        Shift.Legs node session.pace
          { node := session.node, cache := session.cache, watcher, agenda } last ∧
        (step.OnlyTicks → Shift.Beats node session.pace
          { node := session.node, cache := session.cache, watcher, agenda } last) := by
  cases step with
  | act place action =>
      simp only [Step.watcher] at h
      rcases hact : Shift.act node
        ({ node := session.node, cache := session.cache, watcher } : Shift σ υ) action
        with ⟨answer, after⟩
      have hbeats : Shift.Beats node session.pace
          { node := session.node, cache := session.cache, watcher, agenda := [⟨0, 0, action⟩] }
          { after with agenda := [], kept := (0, answer) :: after.kept } := by
        -- what is done at once is an appointment that is kept at once
        have hkeep : Shift.Beat node session.pace
            { node := session.node, cache := session.cache, watcher
              agenda := [⟨0, 0, action⟩] } _ := .pause (.keep rfl)
        have hsame := Shift.act_agenda node
          { node := session.node, cache := session.cache, watcher } [⟨0, 0, action⟩] action
        rw [hact] at hsame
        exact .single (by simpa only [Shift.keep, hsame] using hkeep)
      refine ⟨[⟨0, 0, action⟩], { after with agenda := [], kept := (0, answer) :: after.kept },
        ⟨.done, 0, after.history.reverse, [answer]⟩, ?_, rfl, rfl, rfl, hbeats.legs,
        fun _ => hbeats⟩
      simp only [take, h, hact]
      rfl
  | work place errand meanwhile =>
      simp only [Step.watcher] at h
      have hrun := Shift.legs_run node session.pace
        { node := session.node, cache := session.cache, watcher, agenda := agendaOf meanwhile }
        errand
      have hticks : errand.OnlyTicks → _ := Shift.beats_run node session.pace
        { node := session.node, cache := session.cache, watcher, agenda := agendaOf meanwhile }
      rcases hran : run node session.pace
        { node := session.node, cache := session.cache, watcher, agenda := agendaOf meanwhile }
        errand with ⟨outcome, ended⟩
      rw [hran] at hrun hticks
      have hending := beats session.pace ended
      refine ⟨agendaOf meanwhile, ending ended,
        ⟨outcome, ended.time, (ending ended).history.reverse, answersOf (ending ended).kept⟩, ?_,
        rfl, rfl, agenda ended, hrun.trans hending.legs,
        fun ticking => (hticks ticking).trans hending⟩
      simp only [take, h, hran]
      rfl

theorem step_told (node : Node σ υ) {session : Session σ} {step : Step υ} {watcher : Watcher}
    (h : session.watchers[step.watcher]? = some watcher) :
    ∃ agenda, ∃ last : Shift σ υ, ∃ report : Report,
      session.step node step = (some report, session.absorb step.watcher last) ∧
        report.events = last.history.reverse ∧ agenda.map (·.action) = step.schedule ∧
        last.agenda = [] ∧
        Shift.Legs node session.pace
          { node := session.node, cache := session.cache, watcher, agenda } last ∧
        (step.OnlyTicks → Shift.Beats node session.pace
          { node := session.node, cache := session.cache, watcher, agenda } last) :=
  take_told node (finish_agenda node) (Shift.beats_finish node) h

theorem take_of_present (node : Node σ υ) {ending : Shift σ υ → Shift σ υ}
    (agenda : ∀ shift, (ending shift).agenda = [])
    (beats : ∀ pace shift, Shift.Beats node pace shift (ending shift)) {session : Session σ}
    {step : Step υ} {watcher : Watcher} (h : session.watchers[step.watcher]? = some watcher) :
    ∃ start last : Shift σ υ, ∃ report : Report,
      session.take node ending step = (some report, session.absorb step.watcher last) ∧
        report.events = last.history.reverse ∧
        start.watcher = watcher ∧ start.cache = session.cache ∧ start.history = [] ∧
        (∀ appointment ∈ start.agenda, appointment.action ∈ step.actions) ∧
        Shift.Strides node session.pace start last := by
  obtain ⟨agenda, last, report, htake, hevents, hagenda, -, hlegs, -⟩ :=
    take_told node agenda beats h
  refine ⟨_, last, report, htake, hevents, rfl, rfl, rfl, ?_, hlegs.strides⟩
  intro appointment hmem
  exact Step.mem_actions_of_mem_schedule (hagenda ▸ List.mem_map_of_mem hmem)

theorem step_of_present (node : Node σ υ) {session : Session σ} {step : Step υ} {watcher : Watcher}
    (h : session.watchers[step.watcher]? = some watcher) :
    ∃ start last : Shift σ υ, ∃ report : Report,
      session.step node step = (some report, session.absorb step.watcher last) ∧
        report.events = last.history.reverse ∧
        start.watcher = watcher ∧ start.cache = session.cache ∧ start.history = [] ∧
        (∀ appointment ∈ start.agenda, appointment.action ∈ step.actions) ∧
        Shift.Strides node session.pace start last :=
  take_of_present node (finish_agenda node) (Shift.beats_finish node) h

/-- The result of a step is that of its strides. -/
theorem strides_of_step (node : Node σ υ) {session after : Session σ} {step : Step υ}
    {report : Report} {watcher : Watcher} (h : session.watchers[step.watcher]? = some watcher)
    (hstep : session.step node step = (some report, after)) :
    ∃ start last : Shift σ υ,
      after = session.absorb step.watcher last ∧ report.events = last.history.reverse ∧
        start.watcher = watcher ∧ start.cache = session.cache ∧
        (∀ appointment ∈ start.agenda, appointment.action ∈ step.actions) ∧
        Shift.Strides node session.pace start last := by
  obtain ⟨start, last, told, htold, hevents, hstart, hcache, -, hagenda, hstrides⟩ :=
    step_of_present node h
  rw [htold] at hstep
  obtain ⟨hreport, hafter⟩ := Prod.mk.inj hstep
  cases hreport
  exact ⟨start, last, hafter.symm, hevents, hstart, hcache, hagenda, hstrides⟩

theorem watchers_absorb_self {session : Session σ} {place : Nat} {watcher : Watcher}
    (present : session.watchers[place]? = some watcher) (last : Shift σ υ) :
    (session.absorb place last).watchers[place]? = some last.watcher :=
  List.getElem?_set_self (List.getElem?_eq_some_iff.mp present).1

theorem watchers_absorb_ne (session : Session σ) {place other : Nat} (h : other ≠ place)
    (last : Shift σ υ) :
    (session.absorb place last).watchers[other]? = session.watchers[other]? :=
  List.getElem?_set_ne h.symm

/-! ## Runs -/

/-- Take steps one after the other: the reports, each with the watcher that it is about, and the
session after all of them. -/
def play (node : Node σ υ) (session : Session σ) : List (Step υ) → List (Nat × Report) × Session σ
  | [] => ([], session)
  | step :: rest =>
      let (report, after) := session.step node step
      let (reports, last) := after.play node rest
      ((report.map fun report => (step.watcher, report)).toList ++ reports, last)

/-- Everything that was observed of the watcher at a place, oldest first. -/
def eventsAt (place : Nat) (reports : List (Nat × Report)) : List Event :=
  (reports.filter (·.1 = place)).flatMap (·.2.events)

theorem play_of_absent (node : Node σ υ) {session : Session σ} {step : Step υ}
    (rest : List (Step υ)) (h : session.watchers[step.watcher]? = none) :
    session.play node (step :: rest) = session.play node rest := by
  simp only [play, step_of_absent node h]
  rfl

theorem play_of_present (node : Node σ υ) {session after : Session σ} {step : Step υ}
    {report : Report} (rest : List (Step υ))
    (h : session.step node step = (some report, after)) :
    session.play node (step :: rest) =
      ((step.watcher, report) :: (after.play node rest).1, (after.play node rest).2) := by
  simp only [play, h]
  rfl

theorem eventsAt_append (place : Nat) (early late : List (Nat × Report)) :
    eventsAt place (early ++ late) = eventsAt place early ++ eventsAt place late := by
  simp [eventsAt]

theorem eventsAt_cons_self {place other : Nat} (h : other = place) {report : Report}
    {reports : List (Nat × Report)} :
    eventsAt place ((other, report) :: reports) = report.events ++ eventsAt place reports := by
  rw [eventsAt, List.filter_cons_of_pos (by simpa using h), List.flatMap_cons]
  rfl

theorem eventsAt_cons_ne {place other : Nat} (h : other ≠ place) (report : Report)
    (reports : List (Nat × Report)) :
    eventsAt place ((other, report) :: reports) = eventsAt place reports := by
  rw [eventsAt, List.filter_cons_of_neg (by simpa using h)]
  rfl

/-- A run continues from where its first steps have led. -/
theorem play_append (node : Node σ υ) (early late : List (Step υ)) :
    ∀ session : Session σ, (session.play node (early ++ late)).1 =
      (session.play node early).1 ++ ((session.play node early).2.play node late).1 := by
  induction early with
  | nil => exact fun _ => rfl
  | cons step rest ih =>
      intro session
      simp only [List.cons_append, play, ih, List.append_assoc]

theorem length_play (node : Node σ υ) (steps : List (Step υ)) :
    ∀ session : Session σ,
      (session.play node steps).2.watchers.length = session.watchers.length := by
  induction steps with
  | nil => exact fun _ => rfl
  | cons step rest ih =>
      intro session
      cases hwatcher : session.watchers[step.watcher]? with
      | none =>
          rw [play_of_absent node rest hwatcher]
          exact ih session
      | some watcher =>
          obtain ⟨start, last, report, hstep, -⟩ := step_of_present node hwatcher
          rw [play_of_present node rest hstep]
          exact (ih _).trans List.length_set

/-! ## Whatever is taken in turn

A run is one way of letting watchers do something in turn, and a course of turns is another one
(`Session.course`).  What they have in common is that whatever is taken is made of strides of the
watcher that takes it (`Strides`). -/

/-- Take one after the other, each by its watcher: the reports, each with the watcher that it is
about, and the session after all of them. -/
def follow {α : Type} (go : Session σ → α → Option Report × Session σ) (taker : α → Nat)
    (session : Session σ) : List α → List (Nat × Report) × Session σ
  | [] => ([], session)
  | a :: rest =>
      let (report, after) := go session a
      let (reports, last) := follow go taker after rest
      ((report.map fun report => (taker a, report)).toList ++ reports, last)

theorem play_eq_follow (node : Node σ υ) (steps : List (Step υ)) :
    ∀ session : Session σ,
      session.play node steps = session.follow (step node) Step.watcher steps := by
  induction steps with
  | nil => exact fun _ => rfl
  | cons step rest ih =>
      intro session
      simp only [play, follow, ih]

/-- Whatever is taken is made of strides of the watcher that takes it, in which nothing is done to
it but some actions, and without that watcher nothing happens. -/
structure Strides (node : Node σ υ) {α : Type} (go : Session σ → α → Option Report × Session σ)
    (taker : α → Nat) (actions : α → List (Action υ)) : Prop where
  absent {session : Session σ} {a : α} : session.watchers[taker a]? = none →
    go session a = (none, session)
  present {session : Session σ} {a : α} {watcher : Watcher} :
    session.watchers[taker a]? = some watcher →
    ∃ start last : Shift σ υ, ∃ report : Report,
      go session a = (some report, session.absorb (taker a) last) ∧
        report.events = last.history.reverse ∧
        start.watcher = watcher ∧ start.cache = session.cache ∧ start.history = [] ∧
        (∀ appointment ∈ start.agenda, appointment.action ∈ actions a) ∧
        Shift.Strides node session.pace start last

/-- A step is made of strides of its watcher. -/
theorem strides_step (node : Node σ υ) : Strides node (step node) Step.watcher Step.actions :=
  ⟨step_of_absent node, step_of_present node⟩

/-! ## Invariants of one watcher

What holds of the watcher at a place all along has to survive that the cache grows, and to go on
holding through what the watcher takes itself: through its strides, given what may be done to it. -/

section Invariant

variable (node : Node σ υ) (place : Nat) (allowed : Action υ → Prop)
  (P : List Event → Watcher → Cache → Prop)
  (grow : ∀ {events : List Event} {watcher : Watcher} {before after : Cache},
    P events watcher before → Cache.Grows before after → P events watcher after)
  {α : Type} {go : Session σ → α → Option Report × Session σ} {taker : α → Nat}
  {actions : α → List (Action υ)}

theorem Strides.eventsAt_of_absent {node : Node σ υ} (strides : Strides node go taker actions)
    {place : Nat} (elements : List α) :
    ∀ session : Session σ, session.watchers[place]? = none →
      eventsAt place (session.follow go taker elements).1 = [] := by
  induction elements with
  | nil => exact fun _ _ => rfl
  | cons a rest ih =>
      intro session habsent
      unfold follow
      cases hwatcher : session.watchers[taker a]? with
      | none =>
          simp only [strides.absent hwatcher]
          exact ih session habsent
      | some watcher =>
          obtain ⟨start, last, report, hgo, -⟩ := strides.present hwatcher
          have hother : taker a ≠ place := by
            intro heq
            rw [heq, habsent] at hwatcher
            cases hwatcher
          have hafter : (session.absorb (taker a) last).watchers[place]? = none :=
            (watchers_absorb_ne session (Ne.symm hother) last).trans habsent
          simp only [hgo]
          exact (eventsAt_cons_ne hother report _).trans (ih _ hafter)

include grow

/-- Invariants of one watcher: what the steps of the watcher itself preserve, and what is monotone
in the cache, holds after the run. -/
theorem Strides.own {node : Node σ υ} (strides : Strides node go taker actions)
    (elements : List α) :
    ∀ (session : Session σ) (watcher : Watcher) (events : List Event),
      session.watchers[place]? = some watcher →
      (∀ a ∈ elements, taker a = place →
        ∀ (session : Session σ) (watcher : Watcher) (events : List Event),
          session.watchers[taker a]? = some watcher → P events watcher session.cache →
          ∃ report, ∃ last : Shift σ υ,
            go session a = (some report, session.absorb (taker a) last) ∧
              P (events ++ report.events) last.watcher last.cache) →
      P events watcher session.cache →
      ∃ last, (session.follow go taker elements).2.watchers[place]? = some last ∧
        P (events ++ eventsAt place (session.follow go taker elements).1) last
          (session.follow go taker elements).2.cache := by
  induction elements with
  | nil =>
      intro session watcher events hwatcher _ h
      exact ⟨watcher, hwatcher, by simpa [follow, eventsAt] using h⟩
  | cons a rest ih =>
      intro session watcher events hwatcher hown h
      have hrest := fun other (hother : other ∈ rest) =>
        hown other (List.mem_cons_of_mem a hother)
      unfold follow
      by_cases hplace : taker a = place
      · -- the watcher itself takes it
        have hpresent : session.watchers[taker a]? = some watcher := hplace ▸ hwatcher
        obtain ⟨report, last, hgo, hadvanced⟩ :=
          hown a List.mem_cons_self hplace session watcher events hpresent h
        have hafter : (session.absorb (taker a) last).watchers[place]? = some last.watcher :=
          hplace ▸ watchers_absorb_self hpresent last
        obtain ⟨final, hpresent, hfinal⟩ := ih _ last.watcher _ hafter hrest hadvanced
        simp only [hgo]
        rw [List.append_assoc, ← eventsAt_cons_self hplace] at hfinal
        exact ⟨final, hpresent, hfinal⟩
      · cases hother : session.watchers[taker a]? with
        | none =>
            simp only [strides.absent hother]
            exact ih session watcher events hwatcher hrest h
        | some other =>
            -- another watcher takes it
            obtain ⟨start, last, report, hgo, -, -, hcache, -, -, hstrides⟩ :=
              strides.present hother
            have hafter : (session.absorb (taker a) last).watchers[place]? = some watcher :=
              (watchers_absorb_ne session (Ne.symm hplace) last).trans hwatcher
            have hgrown : P events watcher last.cache := grow (hcache ▸ h) hstrides.grows
            obtain ⟨final, hpresent, hfinal⟩ := ih _ watcher _ hafter hrest hgrown
            simp only [hgo]
            rw [← eventsAt_cons_ne hplace report] at hfinal
            exact ⟨final, hpresent, hfinal⟩

variable
  (advance : ∀ {pace : Pace} {events : List Event} {start last : Shift σ υ},
    P events start.watcher start.cache → start.history = [] →
    (∀ appointment ∈ start.agenda, allowed appointment.action) →
    Shift.Strides node pace start last →
    P (events ++ last.history.reverse) last.watcher last.cache)

include advance

/-- The same for invariants that are preserved by strides. -/
theorem Strides.watcher (strides : Strides node go taker actions) (elements : List α)
    (session : Session σ) (watcher : Watcher) (events : List Event)
    (hwatcher : session.watchers[place]? = some watcher)
    (hallowed : ∀ a ∈ elements, taker a = place → ∀ action ∈ actions a, allowed action)
    (h : P events watcher session.cache) :
    ∃ last, (session.follow go taker elements).2.watchers[place]? = some last ∧
      P (events ++ eventsAt place (session.follow go taker elements).1) last
        (session.follow go taker elements).2.cache := by
  refine strides.own place P grow elements session watcher events hwatcher ?_ h
  intro a ha hplace session watcher events hpresent h
  obtain ⟨start, last, report, hgo, hreport, rfl, hcache, hhistory, hagenda, hstrides⟩ :=
    strides.present hpresent
  refine ⟨report, last, hgo, ?_⟩
  rw [hreport]
  apply advance (hcache ▸ h) hhistory ?_ hstrides
  intro appointment hmem
  exact hallowed a ha hplace _ (hagenda appointment hmem)

/-- The same for invariants that are lifted to some watcher of the run. -/
theorem play_invariant (steps : List (Step υ)) (session : Session σ) (watcher : Watcher)
    (events : List Event) (hwatcher : session.watchers[place]? = some watcher)
    (hallowed : ∀ step ∈ steps, step.watcher = place → ∀ action ∈ step.actions, allowed action)
    (h : P events watcher session.cache) :
    ∃ last, P (events ++ eventsAt place (session.play node steps).1) last
      (session.play node steps).2.cache := by
  obtain ⟨last, -, hlast⟩ := (strides_step node).watcher node place allowed P grow advance steps
    session watcher events hwatcher hallowed h
  exact ⟨last, play_eq_follow node steps session ▸ hlast⟩

/-- The same from new watchers on an empty cache. -/
theorem play_new (settings : Settings) (state : σ) (watchers : Nat) (steps : List (Step υ))
    (hallowed : ∀ step ∈ steps, step.watcher = place → ∀ action ∈ step.actions, allowed action)
    (begin : P [] {} .empty) {watcher : Watcher}
    (hwatcher :
      ((new settings state watchers).play node steps).2.watchers[place]? = some watcher) :
    P (eventsAt place ((new settings state watchers).play node steps).1) watcher
      ((new settings state watchers).play node steps).2.cache := by
  have hplace : place < (new settings state watchers).watchers.length :=
    length_play node steps _ ▸ (List.getElem?_eq_some_iff.mp hwatcher).1
  have hfirst : (new settings state watchers).watchers[place]? = some {} := by
    rw [List.getElem?_eq_getElem hplace]
    exact congrArg some (List.getElem_replicate hplace)
  obtain ⟨last, hlast, hkept⟩ := (strides_step node).watcher node place allowed P grow advance
    steps _ _ [] hfirst hallowed begin
  rw [← play_eq_follow] at hlast hkept
  rw [hwatcher] at hlast
  exact Option.some.inj hlast ▸ hkept

end Invariant

theorem eventsAt_of_absent (node : Node σ υ) {place : Nat} (steps : List (Step υ))
    (session : Session σ) (absent : session.watchers[place]? = none) :
    eventsAt place (session.play node steps).1 = [] := by
  rw [play_eq_follow]
  exact (strides_step node).eventsAt_of_absent steps session absent

end Session

end BlockWatch
