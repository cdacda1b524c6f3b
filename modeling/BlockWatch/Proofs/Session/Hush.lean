import BlockWatch.Proofs.Session.Polling
import BlockWatch.Proofs.Shift.Abreast

/-!
# Subscribers go unnoticed

Normative source: SPEC_FULL.md, section 1, on what the state machine has to cope with:

    while remaining safely mutable from concurrent callers (new subscriptions arriving while a poll
    is in flight)

`subscribers_unnoticed` compares any two runs that differ only in actions of subscribers: when they
subscribe, unsubscribe or drop the channel, between the steps and while a watcher works.  The runs
have the same story, that is the same results, requests with their times, durations, heads and
caches, apart from rosters and notifications (`Session.story`).  A loop that is never stopped ends
its story, and is followed for any number of ticks.

Both runs have the story of their projection (`hushedSteps`), in which those actions are left out.
That is proved by induction on the steps (`story_hushedSteps`), from the simulation of
`Proofs.Shift.Abreast` for work and from `Shift.Level` for what an action leaves.  Agendas are
sorted by time and filtered, in either order (`filter_mergeSort`).
-/

set_option autoImplicit false

namespace BlockWatch

variable {σ υ : Type}

/-! ## Agendas -/

section Sorting

variable {α : Type} {le : α → α → Bool}

/-- Sorting inserts an element before everything that must not come before it. -/
theorem exists_mergeSort_cons (trans : ∀ a b c, le a b = true → le b c = true → le a c = true)
    (total : ∀ a b, (le a b || le b a) = true) (a : α) (l : List α) :
    ∃ early late, (a :: l).mergeSort le = early ++ a :: late ∧ l.mergeSort le = early ++ late ∧
      (∀ b ∈ early, le a b = false) ∧ ∀ b ∈ late, le a b = true := by
  obtain ⟨early, late, hsorted, hrest, hbefore⟩ := List.mergeSort_cons trans total a l
  have hpairwise := List.pairwise_mergeSort trans total (a :: l)
  rw [hsorted] at hpairwise
  exact ⟨early, late, hsorted, hrest, fun b hb => by simpa using hbefore b hb,
    (List.pairwise_cons.mp (List.pairwise_append.mp hpairwise).2.1).1⟩

/-- There is one way to split a list into what lacks a property and then what has it. -/
theorem append_split {p : α → Bool} {early late early' late' : List α}
    (same : early ++ late = early' ++ late')
    (lacks : ∀ a ∈ early, p a = false) (has : ∀ a ∈ late, p a = true)
    (lacks' : ∀ a ∈ early', p a = false) (has' : ∀ a ∈ late', p a = true) :
    early = early' ∧ late = late' := by
  have hlate : ∀ {early late : List α}, (∀ a ∈ early, p a = false) → (∀ a ∈ late, p a = true) →
      (early ++ late).filter p = late := by
    intro early late lacks has
    have hnone : early.filter p = [] := List.filter_eq_nil_iff.mpr (by simpa using lacks)
    rw [List.filter_append, List.filter_eq_self.mpr has, hnone, List.nil_append]
  obtain rfl : late = late' := by rw [← hlate lacks has, same, hlate lacks' has']
  exact ⟨List.append_cancel_right same, rfl⟩

/-- Sorting commutes with filtering. -/
theorem filter_mergeSort (trans : ∀ a b c, le a b = true → le b c = true → le a c = true)
    (total : ∀ a b, (le a b || le b a) = true) (p : α → Bool) (l : List α) :
    (l.mergeSort le).filter p = (l.filter p).mergeSort le := by
  induction l with
  | nil => simp
  | cons a l ih =>
      obtain ⟨early, late, hsorted, hrest, hbefore, hafter⟩ :=
        exists_mergeSort_cons trans total a l
      rw [hrest, List.filter_append] at ih
      rw [hsorted, List.filter_append]
      cases hp : p a with
      | false =>
          rw [List.filter_cons_of_neg (by simp [hp]), List.filter_cons_of_neg (by simp [hp]), ih]
      | true =>
          obtain ⟨early', late', hsorted', hrest', hbefore', hafter'⟩ :=
            exists_mergeSort_cons trans total a (l.filter p)
          obtain ⟨hearly, hlate⟩ := append_split (ih.trans hrest')
            (fun b hb => hbefore b (List.mem_filter.mp hb).1)
            (fun b hb => hafter b (List.mem_filter.mp hb).1) hbefore' hafter'
          rw [List.filter_cons_of_pos hp, List.filter_cons_of_pos hp, hsorted', hearly, hlate]

end Sorting

/-- What is left of what is done meanwhile. -/
def hushedMeanwhile (meanwhile : List (Nat × Action υ)) : List (Nat × Action υ) :=
  meanwhile.filter fun arranged => !arranged.2.isForSubscribers

theorem hushedMeanwhile_hushedMeanwhile (meanwhile : List (Nat × Action υ)) :
    hushedMeanwhile (hushedMeanwhile meanwhile) = hushedMeanwhile meanwhile := by
  simp [hushedMeanwhile, List.filter_filter]

/-- The outline of an agenda depends only on the projected appointments. -/
theorem outline_agendaOf (meanwhile : List (Nat × Action υ)) :
    outline (agendaOf meanwhile) =
      ((hushedMeanwhile meanwhile).mergeSort fun a b => a.1 ≤ b.1).map fun arranged =>
        ⟨0, arranged.1, arranged.2⟩ := by
  -- the places among the appointments do not matter to the order of time
  have harranged : (meanwhile.zipIdx.map fun placed =>
        (⟨placed.2, placed.1.1, placed.1.2⟩ : Appointment υ)).map
        (fun listed => (listed.time, listed.action)) = meanwhile := by
    rw [List.map_map]
    exact List.zipIdx_map_fst 0 meanwhile
  have hsorted : (agendaOf meanwhile).map (fun listed => (listed.time, listed.action)) =
      meanwhile.mergeSort fun a b => a.1 ≤ b.1 := by
    refine Eq.trans ?_ (congrArg (List.mergeSort · fun a b => a.1 ≤ b.1) harranged)
    exact List.map_mergeSort fun _ _ _ _ => rfl
  rw [hushedMeanwhile,
    ← filter_mergeSort (Session.timed_trans Prod.fst) (Session.timed_total Prod.fst), ← hsorted,
    List.filter_map, List.map_map]
  rfl

theorem outline_agendaOf_congr {meanwhile meanwhile' : List (Nat × Action υ)}
    (same : hushedMeanwhile meanwhile' = hushedMeanwhile meanwhile) :
    outline (agendaOf meanwhile') = outline (agendaOf meanwhile) := by
  rw [outline_agendaOf, outline_agendaOf, same]

/-! ## Errands -/

namespace Shift

variable {one other : Shift σ υ}

/-- What is left of a shift. -/
def hushed (shift : Shift σ υ) : Shift σ υ :=
  { shift with
    cache := shift.cache.hushed
    watcher := shift.watcher.hushed
    agenda := outline shift.agenda
    kept := []
    history := BlockWatch.hushed shift.history }

theorem Abreast.hushed (abreast : Abreast one other) : other.hushed = one.hushed := by
  simp only [Shift.hushed, abreast.time, abreast.agenda, abreast.level.node, abreast.level.cache,
    abreast.level.watcher, abreast.level.loop, abreast.level.stopped, abreast.level.history]

/-- The shift in which an errand begins a loop that never ends, if it does. -/
def endless? (node : Node σ υ) (pace : Pace) (shift : Shift σ υ) : Errand → Option (Shift σ υ)
  | .listen cancelled =>
      if (shift.listen node pace cancelled).1 then none else some (shift.startLoop cancelled)
  | _ => none

/-- An errand goes into the same endless loop on both sides, or ends with the same result on both.
-/
theorem Abreast.run (abreast : Abreast one other) (node : Node σ υ) (pace : Pace)
    (errand : Errand) :
    (∃ begun begun', one.endless? node pace errand = some begun ∧
      other.endless? node pace errand = some begun' ∧ Abreast begun begun') ∨
    one.endless? node pace errand = none ∧ other.endless? node pace errand = none ∧
      (Session.run node pace other errand).1 = (Session.run node pace one errand).1 ∧
      Abreast (Session.run node pace one errand).2 (Session.run node pace other errand).2 := by
  cases errand with
  | listen cancelled =>
      obtain ⟨hsame, hended⟩ := abreast.listen node pace cancelled
      rcases hlast : one.listen node pace cancelled with ⟨ended, last⟩
      rcases hlast' : other.listen node pace cancelled with ⟨ended', last'⟩
      rw [hlast, hlast'] at hsame hended
      obtain rfl : ended' = ended := hsame
      simp only [endless?, Session.run, hlast, hlast']
      cases ended' with
      | false => exact Or.inl ⟨_, _, rfl, rfl, abreast.startLoop cancelled⟩
      | true => exact Or.inr ⟨rfl, rfl, rfl, hended rfl⟩
  | _ => exact Or.inr ⟨rfl, rfl, (likeness node).run abreast pace (by simp)⟩

theorem Level.keepLeft (level : Level one other) (node : Node σ υ)
    {appointment : Appointment υ} (h : appointment.action.isForSubscribers = false) :
    Level (Session.keepLeft node one appointment)
      (Session.keepLeft node other { appointment with place := 0 }) := by
  have hsettled : ∀ (time : Nat) (shift : Shift σ υ),
      Level shift (if shift.time < time then shift.settle else shift) := by
    intro time shift
    split
    · exact settle shift
    · exact refl shift
  exact (((hsettled _ one).symm.trans level).trans (hsettled _ other)).keep node h 0

theorem Level.keepLeft_forSubscribers (node : Node σ υ) (shift : Shift σ υ)
    {appointment : Appointment υ} (h : appointment.action.isForSubscribers = true) :
    Level shift (Session.keepLeft node shift appointment) := by
  unfold Session.keepLeft
  split
  · exact (settle shift).trans (keep_forSubscribers node _ h)
  · exact keep_forSubscribers node shift h

theorem Level.keepLeft_outline (node : Node σ υ) (agenda : List (Appointment υ)) :
    ∀ {one other : Shift σ υ}, Level one other →
      Level (agenda.foldl (Session.keepLeft node) one)
        ((outline agenda).foldl (Session.keepLeft node) other) := by
  induction agenda with
  | nil => exact fun level => level
  | cons appointment rest ih =>
      intro one other level
      cases h : appointment.action.isForSubscribers with
      | true =>
          rw [outline_cons_of_forSubscribers h]
          exact ih ((keepLeft_forSubscribers node one h).symm.trans level)
      | false =>
          rw [outline_cons_of_not h]
          exact ih (level.keepLeft node h)

theorem Abreast.finish (abreast : Abreast one other) (node : Node σ υ) :
    Level (Session.finish node one) (Session.finish node other) := by
  have hbegin : Level ({ one with agenda := [], loop := none } : Shift σ υ)
      ({ other with agenda := [], loop := none } : Shift σ υ) := { abreast.level with loop := rfl }
  have hone := Level.keepLeft_outline node one.agenda hbegin
  have hother := Level.keepLeft_outline node other.agenda
    (Level.refl ({ other with agenda := [], loop := none } : Shift σ υ))
  rw [abreast.agenda] at hother
  have hleft : Level (Session.leave node one) (Session.leave node other) := hone.trans hother.symm
  exact ((Level.settle _).symm.trans hleft).trans (Level.settle _)

end Shift

/-! ## Steps -/

/-- What is left of a step: nothing of one that is only about subscribers. -/
def Step.hushed? : Step υ → Option (Step υ)
  | .act place action => if action.isForSubscribers then none else some (.act place action)
  | .work place errand meanwhile => some (.work place errand (hushedMeanwhile meanwhile))

/-- What is left of steps. -/
def hushedSteps (steps : List (Step υ)) : List (Step υ) := steps.filterMap Step.hushed?

/-- What is left of a report: what the errand came to, and what was observed. -/
def Report.hushed (report : Report) : Report :=
  ⟨report.outcome, report.elapsed, BlockWatch.hushed report.events, []⟩

theorem Report.asks_hushed (report : Report) : report.hushed.asks = report.asks := by
  unfold asks hushed BlockWatch.hushed
  rw [List.filterMap_filterMap]
  congr 1
  funext event
  cases event <;> rfl

theorem Report.hushed_congr {outcome outcome' : Outcome} {elapsed elapsed' : Nat}
    {history history' : List Event} {answers answers' : List (Except Failure Cache.Answer)}
    (came : outcome' = outcome) (took : elapsed' = elapsed)
    (events : BlockWatch.hushed history' = BlockWatch.hushed history) :
    (Report.mk outcome' elapsed' history'.reverse answers').hushed =
      (Report.mk outcome elapsed history.reverse answers).hushed := by
  simp only [BlockWatch.hushed] at events
  simp only [Report.hushed, BlockWatch.hushed, List.filterMap_reverse, came, took, events]

/-- Work, and every step that is not about subscribers, has a projection. -/
theorem Step.cases_of_hushed {step left : Step υ} (h : step.hushed? = some left) :
    (∃ place action, step = .act place action ∧ action.isForSubscribers = false ∧ left = step) ∨
      ∃ place errand meanwhile, step = .work place errand meanwhile ∧
        left = .work place errand (hushedMeanwhile meanwhile) := by
  cases step with
  | work place errand meanwhile =>
      exact Or.inr ⟨place, errand, meanwhile, rfl, (Option.some.inj h).symm⟩
  | act place action =>
      cases hforSubscribers : action.isForSubscribers with
      | true =>
          rw [hushed?, if_pos hforSubscribers] at h
          cases h
      | false =>
          rw [hushed?, if_neg (by simp [hforSubscribers])] at h
          exact Or.inl ⟨place, action, rfl, hforSubscribers, (Option.some.inj h).symm⟩

/-- The projection of steps is idempotent. -/
theorem Step.hushed?_of_hushed {step left : Step υ} (h : step.hushed? = some left) :
    left.hushed? = some left := by
  obtain ⟨place, action, rfl, -, rfl⟩ | ⟨place, errand, meanwhile, rfl, rfl⟩ := cases_of_hushed h
  · exact h
  · rw [hushed?, hushedMeanwhile_hushedMeanwhile]

namespace Session

/-- What is left of a session. -/
def hushed (session : Session σ) : Session σ :=
  { session with
    cache := session.cache.hushed
    watchers := session.watchers.map Watcher.hushed }

theorem hushed_watchers (session : Session σ) (place : Nat) :
    session.hushed.watchers[place]? = session.watchers[place]?.map Watcher.hushed :=
  List.getElem?_map

theorem pace_of_hushed {session session' : Session σ} (level : session'.hushed = session.hushed) :
    session'.pace = session.pace := by
  have hpace := congrArg Session.pace level
  exact hpace

/-- Level shifts leave level sessions level. -/
theorem hushed_absorb {session session' : Session σ} (level : session'.hushed = session.hushed)
    (place : Nat) {last last' : Shift σ υ} (worked : Shift.Level last last') :
    (session'.absorb place last').hushed = (session.absorb place last).hushed := by
  have hwatchers := congrArg Session.watchers level
  simp only [hushed] at hwatchers
  simp only [hushed, absorb, List.map_set, pace_of_hushed level, hwatchers, worked.node,
    worked.cache, worked.watcher]

/-- Level sessions have the same watchers, and their shifts begin level. -/
theorem level_of_hushed {session session' : Session σ} (level : session'.hushed = session.hushed)
    (place : Nat) :
    (session.watchers[place]? = none ∧ session'.watchers[place]? = none) ∨
      ∃ watcher watcher', session.watchers[place]? = some watcher ∧
        session'.watchers[place]? = some watcher' ∧
        ∀ agenda agenda' : List (Appointment υ), Shift.Level
          { node := session.node, cache := session.cache, watcher, agenda }
          { node := session'.node, cache := session'.cache, watcher := watcher'
            agenda := agenda' } := by
  have hplace := congrArg (·.watchers[place]?) level
  simp only [hushed_watchers] at hplace
  cases hwatcher : session.watchers[place]? with
  | none =>
      rw [hwatcher, Option.map_none, Option.map_eq_none_iff] at hplace
      exact Or.inl ⟨rfl, hplace⟩
  | some watcher =>
      rw [hwatcher, Option.map_some] at hplace
      obtain ⟨watcher', hwatcher', hsame⟩ := Option.map_eq_some_iff.mp hplace
      have hcache := congrArg Session.cache level
      have hnode := congrArg Session.node level
      exact Or.inr ⟨watcher, watcher', rfl, hwatcher', fun _ _ =>
        ⟨hnode, hcache, hsame, rfl, rfl, rfl⟩⟩

theorem abreast_start {session session' : Session σ} {watcher watcher' : Watcher}
    (level : ∀ agenda agenda' : List (Appointment υ), Shift.Level
      { node := session.node, cache := session.cache, watcher, agenda }
      { node := session'.node, cache := session'.cache, watcher := watcher', agenda := agenda' })
    {meanwhile meanwhile' : List (Nat × Action υ)}
    (same : hushedMeanwhile meanwhile' = hushedMeanwhile meanwhile) :
    Shift.Abreast
      { node := session.node, cache := session.cache, watcher, agenda := agendaOf meanwhile }
      { node := session'.node, cache := session'.cache, watcher := watcher'
        agenda := agendaOf meanwhile' } :=
  ⟨level _ _, rfl, outline_agendaOf_congr same, agendaOf_sorted meanwhile,
    agendaOf_sorted meanwhile'⟩

/-- A step that is about subscribers only has no effect on the projection. -/
theorem step_of_hushed_none (node : Node σ υ) (session : Session σ) {step : Step υ}
    (h : step.hushed? = none) : (session.step node step).2.hushed = session.hushed := by
  cases step with
  | work place errand meanwhile => cases h
  | act place action =>
      have hforSubscribers : action.isForSubscribers = true := by simpa [Step.hushed?] using h
      cases hwatcher : session.watchers[place]? with
      | none => simp only [step, take, hwatcher]
      | some watcher =>
          have hacted := Shift.Level.act_forSubscribers node
            ({ node := session.node, cache := session.cache, watcher } : Shift σ υ) hforSubscribers
          have hset : session.watchers.set place watcher = session.watchers := by
            obtain ⟨hbound, rfl⟩ := List.getElem?_eq_some_iff.mp hwatcher
            exact List.set_getElem_self hbound
          have hstays : (session.absorb place
              ({ node := session.node, cache := session.cache, watcher } : Shift σ υ)) =
                session := by
            simp only [absorb, hset]
          simp only [step, take, hwatcher]
          exact (hushed_absorb rfl place hacted).trans (congrArg hushed hstays)

/-- The shift in which a step begins a loop that never ends, if it does. -/
def endless? (node : Node σ υ) (session : Session σ) : Step υ → Option (Shift σ υ)
  | .act _ _ => none
  | .work place errand meanwhile =>
      session.watchers[place]?.bind fun watcher =>
        Shift.endless? node session.pace
          { node := session.node, cache := session.cache, watcher, agenda := agendaOf meanwhile }
          errand

/-- Step lemma: a step in one of two level sessions and its projection in the other both run
forever, or both end with reports and sessions of the same projection. -/
theorem step_of_hushed_some (node : Node σ υ) {session session' : Session σ}
    (level : session'.hushed = session.hushed) {step left : Step υ}
    (h : step.hushed? = some left) :
    (∃ begun begun', session.endless? node step = some begun ∧
      session'.endless? node left = some begun' ∧ Shift.Abreast begun begun') ∨
    session.endless? node step = none ∧ session'.endless? node left = none ∧
      (session'.step node left).1.map Report.hushed =
        (session.step node step).1.map Report.hushed ∧
      (session'.step node left).2.hushed = (session.step node step).2.hushed := by
  obtain ⟨place, action, rfl, hnot, rfl⟩ | ⟨place, errand, meanwhile, rfl, rfl⟩ :=
    Step.cases_of_hushed h
  · refine Or.inr ⟨rfl, rfl, ?_⟩
    rcases level_of_hushed (υ := υ) level place with ⟨habsent, habsent'⟩ |
      ⟨watcher, watcher', hwatcher, hwatcher', hbegin⟩
    · simp only [Session.step, take, habsent, habsent']
      exact ⟨trivial, level⟩
    · have hacted := (hbegin [] []).act node hnot
      simp only [Session.step, take, hwatcher, hwatcher']
      exact ⟨congrArg some (Report.hushed_congr rfl rfl hacted.history),
        hushed_absorb level place hacted⟩
  · rcases level_of_hushed (υ := υ) level place with ⟨habsent, habsent'⟩ |
      ⟨watcher, watcher', hwatcher, hwatcher', hbegin⟩
    · simp only [Session.step, take, endless?, habsent, habsent']
      exact Or.inr ⟨rfl, rfl, trivial, level⟩
    · have habreast := abreast_start hbegin (hushedMeanwhile_hushedMeanwhile meanwhile)
      simp only [Session.step, take, endless?, hwatcher, hwatcher', pace_of_hushed level,
        Option.bind_some]
      refine (habreast.run node session.pace errand).imp_right ?_
      rintro ⟨hends, hends', houtcome, hran⟩
      have hfinished := hran.finish node
      exact ⟨hends, hends',
        congrArg some (Report.hushed_congr houtcome hran.time hfinished.history),
        hushed_absorb level place hfinished⟩

/-! ## Runs -/

/-- What is seen of a run when subscribers are left out. -/
inductive Story (σ υ : Type) where
  /-- the run is over -/
  | over (last : Session σ)
  /-- the report of a step, the session after it, and how the story goes on -/
  | step (report : Option Report) (after : Session σ) (rest : Story σ υ)
  /-- a loop that never ends: the shift after any number of ticks -/
  | endless (after : Nat → Shift σ υ)

/-- The story of a run.  Steps that are only about subscribers do not occur in it. -/
def story (node : Node σ υ) (session : Session σ) : List (Step υ) → Story σ υ
  | [] => .over session.hushed
  | step :: rest =>
      match session.endless? node step with
      | some begun => .endless fun ticks => (begun.loopFor node session.pace ticks).2.hushed
      | none =>
          let (report, after) := session.step node step
          match step.hushed? with
          | none => after.story node rest
          | some _ => .step (report.map Report.hushed) after.hushed (after.story node rest)

/-- Run lemma: a run and its projection have the same story. -/
theorem story_hushedSteps (node : Node σ υ) (steps : List (Step υ)) :
    ∀ {session session' : Session σ}, session'.hushed = session.hushed →
      session'.story node (hushedSteps steps) = session.story node steps := by
  induction steps with
  | nil => exact fun level => congrArg Story.over level
  | cons step rest ih =>
      intro session session' level
      cases h : step.hushed? with
      | none =>
          have hhushed := step_of_hushed_none node session h
          have hends : session.endless? node step = none := by
            cases step with
            | act place action => rfl
            | work place errand meanwhile => cases h
          rw [hushedSteps, List.filterMap_cons_none h]
          simp only [story, h, hends]
          exact ih (level.trans hhushed.symm)
      | some left =>
          rw [hushedSteps, List.filterMap_cons_some h]
          obtain ⟨begun, begun', hbegun, hbegun', habreast⟩ | ⟨hends, hends', hreport, hafter⟩ :=
            step_of_hushed_some node level h
          · simp only [story, hbegun, hbegun', pace_of_hushed level]
            congr 1
            funext ticks
            exact (Shift.Abreast.loopFor node session.pace ticks habreast).2.hushed
          · simp only [story, h, Step.hushed?_of_hushed h, hends, hends', hreport, hafter]
            exact congrArg _ (ih hafter)

/-- Two runs of new watchers on one node whose projections agree have the same story: they may
differ in when somebody subscribes or unsubscribes, or the receiver of the notifications goes away,
between the steps or while a watcher works. -/
theorem subscribers_unnoticed (settings : Settings) (node : Node σ υ) (state : σ) (watchers : Nat)
    {steps steps' : List (Step υ)} (same : hushedSteps steps' = hushedSteps steps) :
    (new settings state watchers).story node steps' =
      (new settings state watchers).story node steps := by
  have hstory := story_hushedSteps node steps (rfl : (new settings state watchers).hushed = _)
  have hstory' := story_hushedSteps node steps' (rfl : (new settings state watchers).hushed = _)
  rw [same] at hstory'
  exact hstory'.symm.trans hstory

/-- A node that announces one block after the other, and takes its time. -/
def unhurried : Script where
  head := some "0x3"
  queue := [some "0x1", some "0x2"]
  blocks := ⟨[("0x1", ⟨"0xb", ["0xa1"]⟩), ("0x2", ⟨"0xc", ["0xa2"]⟩), ("0x3", ⟨"0xd", []⟩)]⟩
  transactions :=
    ⟨[("0xa1", ⟨"0xa1", "0xa", none, []⟩), ("0xa2", ⟨"0xa2", "0xe", some "0xa", []⟩)]⟩
  latency := ⟨[("head", 2), ("0x1", 5), ("0xa1", 5), ("0xa2", 3)]⟩

/-- Nobody subscribes, and the last loop never ends. -/
def lonely : List (Step Script.Update) :=
  [.work 0 .observe [], .work 0 .attempt [], .work 0 (.listen false) [(25, .close)],
    .work 0 (.listen false) [(9, .cache (.block "0x3"))]]

/-- Somebody subscribes, also while the watcher looks at the head, goes away in the middle of an
attempt, and comes back while a loop goes on, until nobody receives notifications any more. -/
def visited : List (Step Script.Update) :=
  [.act 0 (.subscribe "0x0a"), .work 0 .observe [(1, .subscribe "0xe")],
    .work 0 .attempt [(3, .unsubscribe "0xe")],
    .work 0 (.listen false) [(25, .close), (20, .dropReceiver), (11, .subscribe "0xe")],
    .work 0 (.listen false) [(9, .cache (.block "0x3")), (500, .cache (.unsubscribe "0xa"))]]

/-- With a visitor who subscribes, unsubscribes and is told of a transaction, the story is that of
the run without the visitor. -/
theorem subscribers_unnoticed_visited :
    let first := new hasty unhurried 1
    hushedSteps visited = hushedSteps lonely ∧
      (first.play Script.node (visited.take 3)).1.map (fun report => report.2.notifications) =
        [[], [], [⟨"0xa", [⟨"0xa1", "0xa", none, []⟩]⟩, ⟨"0xe", []⟩]] ∧
      (first.play Script.node (lonely.take 3)).1.map
          (fun report => (report.2.elapsed, report.2.asks)) =
        [(2, [(0, .head)]), (10, [(0, .block "0x1"), (5, .transaction "0xa1")]),
          (27, [(10, .head), (12, .block "0x2"), (12, .transaction "0xa2"), (25, .head),
            (27, .block "0x3")])] ∧
      first.story Script.node visited = first.story Script.node lonely := by
  have hsame : hushedSteps visited = hushedSteps lonely := rfl
  exact ⟨hsame, by cbv, by cbv, subscribers_unnoticed hasty Script.node unhurried 1 hsame⟩

end Session

end BlockWatch
