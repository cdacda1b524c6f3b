import BlockWatch.Proofs.Shift.Attempt
import BlockWatch.Proofs.Shift.Notifications
import BlockWatch.Proofs.Shift.Phases
import BlockWatch.Shift.Loop

/-!
# How a loop goes

Normative source: SPEC_FULL.md, section 4.3, `Listen`:

    runs until `ctx` is cancelled (externally, or via `Close`). Each iteration: wait `pollInterval`,
    then run `checkNewBlock` and `processNextBlock` synchronously.

`Polls` describes a loop that is told to stop at a given time: it rests for the interval, ticks,
rests again, and so on.  While it rests it only waits, so it stops at the moment at which it is told
to, and what it is told during a tick it heeds when the tick has ended.  `polls_listen` shows that
every such loop ends and goes this way, and `listen_ends_iff` that a loop which nobody stops does
not end.

The invariant (`Heading`) is that the first action on the agenda which stops the loop is still ahead
as long as the loop has not been told to stop.  The ticks that the definition allows suffice,
because every rest before that action takes at least one unit of time.
-/

set_option autoImplicit false

namespace BlockWatch.Shift

variable {σ υ : Type}

/-! ## The phases of a tick -/

theorem phases_observeHead (node : Node σ υ) (shift : Shift σ υ) :
    Phases node shift (shift.observeHead node).2 := by
  have hask := phases_ask node shift .head
  unfold observeHead lookAtHead
  rcases hasked : shift.ask node .head with ⟨answer, told⟩
  rw [hasked] at hask
  cases answer with
  | error failure => exact hask.tail (phase_observe node told _)
  | ok head =>
      cases hdecode : Quantity.decode head with
      | error failure =>
          simp only [hdecode]
          exact hask.tail (phase_observe node told _)
      | ok n =>
          simp only [hdecode]
          exact (hask.tail (.note _ _ _ _ _ _)).tail (phase_observe node _ _)

theorem phases_obtainBlock (node : Node σ υ) (shift : Shift σ υ) (number : String) :
    Phases node shift (shift.obtainBlock node number).2 := by
  have hask := phases_ask node shift (.block number)
  unfold obtainBlock
  cases hcached : shift.cache.block number with
  | ok block => exact .refl
  | error missing =>
      rcases hasked : shift.ask node (.block number) with ⟨answer, told⟩
      rw [hasked] at hask
      cases answer with
      | error failure => exact hask
      | ok block => exact hask.tail (.note _ _ _ _ _ _)

theorem phases_processBlock (node : Node σ υ) (pace : Pace) (shift : Shift σ υ) (number : String)
    (subscribers : List String) :
    Phases node shift (shift.processBlock node pace number subscribers).2 := by
  have hobtain := phases_obtainBlock node shift number
  have resolved : ∀ {block outcome obtained worked},
      shift.obtainBlock node number = (.ok block, obtained) →
      Resolution.run node pace obtained block.transactions = (outcome, worked) →
      Phases node shift worked := by
    intro block outcome obtained worked got ran
    have hrun := Resolution.phases_run node pace obtained block.transactions
    rw [got] at hobtain
    rw [ran] at hrun
    exact hobtain.trans hrun
  have hwork := blockWork node pace shift number subscribers
  generalize (shift.processBlock node pace number subscribers).1 = result at hwork
  generalize (shift.processBlock node pace number subscribers).2 = after at hwork ⊢
  cases hwork with
  | withheld got => rwa [got] at hobtain
  | setback got ran => exact resolved got ran
  | unmarked got ran marked => exact resolved got ran
  | processed got ran marked => exact (resolved got ran).tail (.note _ _ _ _ _ _)

theorem phases_attempt (node : Node σ υ) (pace : Pace) (shift : Shift σ υ) :
    Phases node shift (shift.attempt node pace).2 := by
  have hadvance : Phases node shift (shift.advance node pace).2 := by
    unfold advance
    cases shift.watcher.candidate shift.cache with
    | error failure => exact .refl
    | ok chosen =>
        cases chosen with
        | none => exact .refl
        | some number => exact phases_processBlock node pace shift number _
  exact hadvance.tail (phase_observe node _ _)

theorem phases_tick (node : Node σ υ) (pace : Pace) (shift : Shift σ υ) :
    Phases node shift (shift.tick node pace) :=
  ((((phases_observeHead node shift).tail (phase_write node _ _)).trans
    (phases_attempt node pace _)).tail (phase_write node _ _))

/-! ## Rests -/

/-- The time of the first action on an agenda that stops the loop. -/
def firstStop (agenda : List (Appointment υ)) : Option Nat :=
  (agenda.find? (·.action.stops)).map (·.time)

theorem firstStop_append_of_none {early : List (Appointment υ)}
    (h : early.any (·.action.stops) = false) (late : List (Appointment υ)) :
    firstStop (early ++ late) = firstStop late := by
  have hnone : early.find? (·.action.stops) = none := by simpa using h
  rw [firstStop, List.find?_append, hnone, Option.none_or]
  rfl

theorem firstStop_cons_of_not {appointment : Appointment υ}
    (h : appointment.action.stops = false) (rest : List (Appointment υ)) :
    firstStop (appointment :: rest) = firstStop rest :=
  firstStop_append_of_none (by rw [List.any_cons, List.any_nil, Bool.or_false, h]) rest

theorem exists_of_firstStop {agenda : List (Appointment υ)} {c : Nat}
    (h : firstStop agenda = some c) :
    ∃ appointment ∈ agenda, appointment.action.stops = true ∧ appointment.time = c := by
  obtain ⟨appointment, hfind, rfl⟩ := Option.map_eq_some_iff.mp h
  have hstops := List.find?_some hfind
  exact ⟨appointment, List.mem_of_find?_eq_some hfind, hstops, rfl⟩

theorem firstStop_le {agenda : List (Appointment υ)} (sorted : agenda.Pairwise (·.time ≤ ·.time))
    {c : Nat} (h : firstStop agenda = some c) {appointment : Appointment υ}
    (mem : appointment ∈ agenda) (stops : appointment.action.stops = true) :
    c ≤ appointment.time := by
  obtain ⟨first, hfind, rfl⟩ := Option.map_eq_some_iff.mp h
  obtain ⟨-, early, late, rfl, hnone⟩ := List.find?_eq_some_iff_append.mp hfind
  rcases List.mem_append.mp mem with hearly | hlate
  · exact absurd stops (by simpa using hnone appointment hearly)
  · rcases List.mem_cons.mp hlate with rfl | hlate
    · exact Nat.le_refl _
    · exact (List.pairwise_cons.mp (List.pairwise_append.mp sorted).2.1).1 appointment hlate

theorem keep_clock (node : Node σ υ) (shift : Shift σ υ) (time : Nat)
    (appointment : Appointment υ) :
    { shift with time }.keep node appointment = { shift.keep node appointment with time } := by
  simp only [keep, act_clock]

theorem foldl_keep_clock (node : Node σ υ) (time : Nat) (done : List (Appointment υ)) :
    ∀ shift : Shift σ υ, done.foldl (keep node) { shift with time } =
      { done.foldl (keep node) shift with time } := by
  induction done with
  | nil => exact fun _ => rfl
  | cons appointment rest ih =>
      intro shift
      rw [List.foldl_cons, List.foldl_cons, keep_clock, ih]

theorem keepBefore_clock (node : Node σ υ) (time clock : Nat) (agenda : List (Appointment υ)) :
    ∀ shift : Shift σ υ, { shift with time := clock }.keepBefore node time agenda =
      { shift.keepBefore node time agenda with time := clock } := by
  induction agenda with
  | nil => exact fun _ => rfl
  | cons appointment rest ih =>
      intro shift
      unfold keepBefore
      split
      · rw [keep_clock]
        exact ih (shift.keep node appointment)
      · rfl

theorem restUntil_of_stopped (node : Node σ υ) (time : Nat) {shift : Shift σ υ}
    (stopped : shift.stopped = true) (agenda : List (Appointment υ)) :
    shift.restUntil node time agenda = { shift with agenda } := by
  cases agenda with
  | nil => exact if_pos stopped
  | cons appointment rest => exact if_pos stopped

theorem restUntil_cons (node : Node σ υ) {time : Nat} {shift : Shift σ υ}
    (going : shift.stopped = false) {appointment : Appointment υ} (before : appointment.time < time)
    (rest : List (Appointment υ)) :
    shift.restUntil node time (appointment :: rest) =
      { shift.keep node appointment with
        time := max shift.time appointment.time }.restUntil node time rest := by
  rw [restUntil, if_neg (by simp [going]), if_pos before]

/-- A rest without a stop is waiting. -/
theorem restUntil_of_later (node : Node σ υ) {time loop : Nat} (agenda : List (Appointment υ)) :
    ∀ shift : Shift σ υ, shift.Running loop → shift.stopped = false →
      (∀ appointment ∈ agenda, appointment.action.stops = true → time ≤ appointment.time) →
      shift.restUntil node time agenda = { shift.keepBefore node time agenda with time } ∧
        (shift.keepBefore node time agenda).Running loop ∧
        (shift.keepBefore node time agenda).stopped = false ∧
        firstStop (shift.keepBefore node time agenda).agenda = firstStop agenda := by
  induction agenda with
  | nil =>
      intro shift running going _
      refine ⟨?_, ⟨running.running, running.handle⟩, going, rfl⟩
      rw [restUntil, if_neg (by simp [going]), keepBefore]
  | cons appointment rest ih =>
      intro shift running going hlater
      by_cases hbefore : appointment.time < time
      · have hgoes : appointment.action.stops = false := by
          rw [← Bool.not_eq_true]
          intro hstops
          exact absurd (hlater appointment List.mem_cons_self hstops) (by omega)
        obtain ⟨hrunning, hstopped⟩ := running.act node appointment.action
        rw [going, hgoes, Bool.or_false] at hstopped
        obtain ⟨hwait, hrun, hgoing, hfirst⟩ := ih
          { shift.keep node appointment with time := max shift.time appointment.time }
          ⟨hrunning.running, hrunning.handle⟩ hstopped
          fun other hother => hlater other (List.mem_cons_of_mem appointment hother)
        rw [restUntil_cons node going hbefore, hwait]
        rw [keepBefore_clock] at hrun hgoing hfirst ⊢
        rw [keepBefore, if_pos hbefore]
        exact ⟨rfl, ⟨hrun.running, hrun.handle⟩, hgoing,
          hfirst.trans (firstStop_cons_of_not hgoes rest).symm⟩
      · rw [restUntil, if_neg (by simp [going]), if_neg hbefore, keepBefore, if_neg hbefore]
        exact ⟨rfl, ⟨running.running, running.handle⟩, going, rfl⟩

/-- A rest ends with the first stop; until then only appointments are kept. -/
theorem restUntil_of_stop (node : Node σ υ) {time loop c : Nat} (agenda : List (Appointment υ)) :
    ∀ shift : Shift σ υ, shift.Running loop → shift.stopped = false →
      agenda.Pairwise (·.time ≤ ·.time) → firstStop agenda = some c → c < time →
      ∃ done, agenda = done ++ (shift.restUntil node time agenda).agenda ∧
        shift.restUntil node time agenda =
          { done.foldl (keep node) shift with
            agenda := (shift.restUntil node time agenda).agenda
            time := max shift.time c } ∧
        (shift.restUntil node time agenda).stopped = true := by
  induction agenda with
  | nil =>
      intro shift _ _ _ hfirst
      cases hfirst
  | cons appointment rest ih =>
      intro shift running going sorted hfirst hbefore
      obtain ⟨hle, hsorted⟩ := List.pairwise_cons.mp sorted
      obtain ⟨hrunning, hstopped⟩ := running.act node appointment.action
      rw [going, Bool.false_or] at hstopped
      cases hstops : appointment.action.stops with
      | true =>
          -- this is the first stop: the loop ends as soon as the appointment is kept
          have hnow : appointment.time = c := by
            have hfind : (appointment :: rest).find? (·.action.stops) = some appointment :=
              List.find?_cons_of_pos hstops
            rw [firstStop, hfind] at hfirst
            exact Option.some.inj hfirst
          rw [hstops] at hstopped
          have hended : { shift.keep node appointment with
              time := max shift.time appointment.time }.stopped = true := hstopped
          rw [restUntil_cons node going (hnow ▸ hbefore), restUntil_of_stopped node time hended,
            hnow]
          exact ⟨[appointment], rfl, rfl, hstopped⟩
      | false =>
          have hlater : firstStop rest = some c := (firstStop_cons_of_not hstops rest) ▸ hfirst
          obtain ⟨stop, hmem, -, hstop⟩ := exists_of_firstStop hlater
          have hnow : appointment.time ≤ c := hstop ▸ hle stop hmem
          rw [hstops] at hstopped
          obtain ⟨done, hagenda, hdone, hend⟩ := ih
            { shift.keep node appointment with time := max shift.time appointment.time }
            ⟨hrunning.running, hrunning.handle⟩ hstopped hsorted hlater hbefore
          rw [restUntil_cons node going (Nat.lt_of_le_of_lt hnow hbefore)]
          refine ⟨appointment :: done, congrArg _ hagenda, ?_, hend⟩
          have hlatest : max (max shift.time appointment.time) c = max shift.time c := by omega
          rw [hlatest, foldl_keep_clock] at hdone
          exact hdone

theorem keepBefore_ahead (node : Node σ υ) (time : Nat) (agenda : List (Appointment υ)) :
    ∀ shift : Shift σ υ, agenda.Pairwise (·.time ≤ ·.time) →
      ∀ appointment ∈ (shift.keepBefore node time agenda).agenda, time ≤ appointment.time := by
  induction agenda with
  | nil =>
      intro shift _ appointment h
      cases h
  | cons first rest ih =>
      intro shift sorted
      obtain ⟨hle, hsorted⟩ := List.pairwise_cons.mp sorted
      unfold keepBefore
      split
      · exact ih _ hsorted
      · rename_i hnot
        intro appointment h
        rcases List.mem_cons.mp h with rfl | h
        · exact Nat.le_of_not_lt hnot
        · exact Nat.le_trans (Nat.le_of_not_lt hnot) (hle appointment h)

/-! ## Loops -/

/-- How a loop goes that is told to stop at the time `c`, from a shift in which it begins to rest:
the shifts in which its ticks begin, and the one in which it has ended. -/
inductive Polls (node : Node σ υ) (pace : Pace) (c : Nat) :
    Shift σ υ → List (Shift σ υ) → Shift σ υ → Prop
  /-- the loop was told to stop before it could rest, and ends at once -/
  | told {shift : Shift σ υ} (stopped : shift.stopped = true) (past : c ≤ shift.time) :
      Polls node pace c shift [] shift
  /-- the loop is told to stop while it rests, and ends at that time, or at once if that is over,
  before another tick begins; the tasks run when the rest begins, then appointments are kept, and
  nothing else happens -/
  | stop {shift last : Shift σ υ} {done : List (Appointment υ)}
      (soon : c < shift.time + pace.interval)
      (agenda : shift.agenda = done ++ last.agenda)
      (rests : last =
        { done.foldl (keep node) shift.settle with
          agenda := last.agenda, time := max shift.time c }) :
      Polls node pace c shift [] last
  /-- the loop runs the tasks, waits for the interval, ticks, not later than at that time, and
  begins to rest again -/
  | tick {shift began last : Shift σ υ} {ticks : List (Shift σ υ)}
      (waits : began = shift.settle.passUntil node (shift.time + pace.interval))
      (inTime : began.time ≤ c)
      (ahead : ∀ appointment ∈ began.agenda, began.time ≤ appointment.time)
      (polls : Polls node pace c (began.tick node pace) ticks last) :
      Polls node pace c shift (began :: ticks) last

theorem Polls.ahead {node : Node σ υ} {pace : Pace} {c : Nat} {shift last : Shift σ υ}
    {ticks : List (Shift σ υ)} (polls : Polls node pace c shift ticks last) :
    ∀ began ∈ ticks, ∀ appointment ∈ began.agenda, began.time ≤ appointment.time := by
  induction polls with
  | told stopped past => simp
  | stop soon agenda rests => simp
  | tick waits inTime ahead polls ih =>
      intro began h
      rcases List.mem_cons.mp h with rfl | h
      · exact ahead
      · exact ih began h

/-- A loop that is told to stop at the time `c`: either that lies ahead on the agenda, which is in
the order of time, or it is over and the loop has heard of it. -/
structure Heading (shift : Shift σ υ) (loop c : Nat) : Prop where
  running : shift.Running loop
  sorted : shift.agenda.Pairwise (·.time ≤ ·.time)
  stop : shift.stopped = true ∧ c ≤ shift.time ∨
    shift.stopped = false ∧ firstStop shift.agenda = some c

/-- The invariant is preserved by phases: a stop that was heard is not forgotten, and any other one
is still ahead. -/
theorem Heading.heeds {before after : Shift σ υ} {loop c : Nat} (heading : before.Heading loop c)
    {done : List (Appointment υ)} (heeds : Heeds before after done) : after.Heading loop c := by
  obtain ⟨hrunning, hstopped⟩ := heeds.running loop heading.running
  have hsorted := heading.sorted
  rw [heeds.agenda] at hsorted
  refine ⟨hrunning, (List.pairwise_append.mp hsorted).2.1, ?_⟩
  rcases heading.stop with ⟨hbefore, hover⟩ | ⟨hbefore, hfirst⟩
  · refine Or.inl ⟨?_, Nat.le_trans hover heeds.later⟩
    rw [hstopped, hbefore, Bool.true_or]
  · rw [hbefore, Bool.false_or] at hstopped
    cases hany : done.any (·.action.stops) with
    | true =>
        obtain ⟨appointment, hmem, hstops⟩ := List.any_eq_true.mp hany
        have hlisted : appointment ∈ before.agenda :=
          heeds.agenda ▸ List.mem_append_left after.agenda hmem
        exact Or.inl ⟨hstopped.trans hany, Nat.le_trans
          (firstStop_le heading.sorted hfirst hlisted hstops) (heeds.due appointment hmem)⟩
    | false =>
        rw [heeds.agenda, firstStop_append_of_none hany] at hfirst
        exact Or.inr ⟨hstopped.trans hany, hfirst⟩

theorem Heading.rest {shift : Shift σ υ} {loop c : Nat} (heading : shift.Heading loop c)
    (going : shift.stopped = false) (first : firstStop shift.agenda = some c) (node : Node σ υ)
    {time : Nat} (later : shift.time ≤ time) (inTime : time ≤ c) :
    shift.restUntil node time shift.agenda = shift.passUntil node time ∧
      (shift.passUntil node time).Heading loop c ∧ (shift.passUntil node time).stopped = false ∧
      ∀ appointment ∈ (shift.passUntil node time).agenda, time ≤ appointment.time := by
  have hlater : ∀ appointment ∈ shift.agenda, appointment.action.stops = true →
      time ≤ appointment.time := by
    intro appointment hmem hstops
    exact Nat.le_trans inTime (firstStop_le heading.sorted first hmem hstops)
  obtain ⟨hwait, -, hgoes, -⟩ :=
    restUntil_of_later node shift.agenda shift heading.running going hlater
  obtain ⟨done, hheeds⟩ := Heeds.passUntil node later
  exact ⟨hwait, heading.heeds hheeds, hgoes,
    keepBefore_ahead node time shift.agenda shift heading.sorted⟩

/-- Tasks leave the clock, the agenda and the loop as they are. -/
theorem settle_frame (shift : Shift σ υ) :
    shift.settle.time = shift.time ∧ shift.settle.agenda = shift.agenda ∧
      shift.settle.stopped = shift.stopped ∧ Heeds shift shift.settle [] := by
  obtain ⟨told, hsettle, -⟩ := settle_told shift
  rw [hsettle]
  exact ⟨rfl, rfl, rfl, rfl, by simp, Nat.le_refl _,
    fun _ running => ⟨⟨running.running, running.handle⟩, (Bool.or_false _).symm⟩⟩

theorem rest_of_going (node : Node σ υ) (time : Nat) {shift : Shift σ υ}
    (going : shift.stopped = false) :
    shift.rest node time = shift.settle.restUntil node time shift.settle.agenda :=
  if_neg (by simp [going])

/-- Run lemma: a loop that is followed far enough ends, as `Polls` says. -/
theorem polls_loopFor (node : Node σ υ) (pace : Pace) {loop c : Nat} (ticks : Nat) :
    ∀ shift : Shift σ υ, shift.Heading loop c → 0 < ticks → c < shift.time + ticks →
      ∃ begun last, loopFor node pace ticks shift = (true, last) ∧
        Polls node pace c shift begun last := by
  induction ticks with
  | zero =>
      intro shift _ hpos
      exact absurd hpos (Nat.lt_irrefl 0)
  | succ ticks ih =>
      intro shift heading _ hticks
      rw [loopFor]
      rcases heading.stop with ⟨hstopped, hover⟩ | ⟨hgoing, hfirst⟩
      · -- the loop was told to stop during the last tick
        have hrest : shift.rest node (shift.time + pace.interval) = shift := if_pos hstopped
        simp only [hrest, hstopped, if_true]
        exact ⟨[], shift, rfl, .told hstopped hover⟩
      · obtain ⟨htime, hagenda, hstopped, hsettles⟩ := settle_frame shift
        have hsettled := heading.heeds hsettles
        rw [rest_of_going node _ hgoing]
        by_cases hbefore : c < shift.time + pace.interval
        · -- the loop is told to stop while it rests
          obtain ⟨done, hleft, hrest, hended⟩ := restUntil_of_stop node shift.settle.agenda
            shift.settle hsettled.running (hstopped.trans hgoing) hsettled.sorted
            (hagenda ▸ hfirst) hbefore
          simp only [hended, if_true]
          exact ⟨[], _, rfl, .stop hbefore (hagenda.symm.trans hleft) (htime ▸ hrest)⟩
        · have hinTime : shift.time + pace.interval ≤ c := Nat.le_of_not_lt hbefore
          obtain ⟨hwait, hbegan, hgoes, hahead⟩ :=
            hsettled.rest (hstopped.trans hgoing) (hagenda ▸ hfirst) node
              (htime ▸ Nat.le_add_right _ pace.interval) hinTime
          obtain ⟨done, hheeds⟩ := Heeds.of_phases (phases_tick node pace
            (shift.settle.passUntil node (shift.time + pace.interval)))
          -- a rest takes time, so the ticks that are left are still enough
          have hpassed : shift.time + pace.interval ≤
              ((shift.settle.passUntil node (shift.time + pace.interval)).tick node pace).time :=
            hheeds.later
          have hpositive := pace.interval_pos
          obtain ⟨begun, last, hlast, hpolls⟩ :=
            ih _ (hbegan.heeds hheeds) (by omega) (by omega)
          simp only [hwait, hgoes, Bool.false_eq_true, if_false]
          exact ⟨_ :: begun, last, hlast, .tick rfl hinTime hahead hpolls⟩

theorem lt_horizon {agenda : List (Appointment υ)} {appointment : Appointment υ}
    (h : appointment ∈ agenda) : appointment.time < horizon agenda := by
  have hfold : ∀ (agenda : List (Appointment υ)) (latest : Nat),
      latest ≤ agenda.foldl (fun latest appointment => max latest (appointment.time + 1)) latest ∧
        ∀ appointment ∈ agenda, appointment.time <
          agenda.foldl (fun latest appointment => max latest (appointment.time + 1)) latest := by
    intro agenda
    induction agenda with
    | nil => exact fun latest => ⟨Nat.le_refl _, by simp⟩
    | cons first rest ih =>
        intro latest
        obtain ⟨hle, hrest⟩ := ih (max latest (first.time + 1))
        rw [List.foldl_cons]
        refine ⟨by omega, ?_⟩
        intro appointment h
        rcases List.mem_cons.mp h with rfl | h
        · omega
        · exact hrest appointment h
  exact (hfold agenda 0).2 appointment h

/-- A loop ends as `Polls` says if it is told to stop before it starts or by an action on the
agenda. -/
theorem polls_listen (node : Node σ υ) (pace : Pace) (shift : Shift σ υ) {cancelled : Bool}
    {c : Nat} (sorted : shift.agenda.Pairwise (·.time ≤ ·.time))
    (stop : cancelled = true ∧ c ≤ shift.time ∨
      cancelled = false ∧ firstStop shift.agenda = some c) :
    ∃ begun last, shift.listen node pace cancelled = (true, last) ∧
      Polls node pace c (shift.startLoop cancelled) begun last := by
  have hheading : (shift.startLoop cancelled).Heading shift.watcher.loops c :=
    ⟨⟨rfl, fun _ => rfl⟩, sorted, stop⟩
  apply polls_loopFor node pace _ _ hheading (Nat.succ_pos _)
  show c < shift.time + (horizon shift.agenda + 2)
  rcases stop with ⟨-, hover⟩ | ⟨-, hfirst⟩
  · omega
  · obtain ⟨appointment, hmem, -, rfl⟩ := exists_of_firstStop hfirst
    have hlt := lt_horizon hmem
    omega

/-- A loop that runs, and that nothing on the agenda stops. -/
structure Unstopped (shift : Shift σ υ) (loop : Nat) : Prop where
  running : shift.Running loop
  going : shift.stopped = false
  never : ∀ appointment ∈ shift.agenda, appointment.action.stops = false

theorem Unstopped.heeds {before after : Shift σ υ} {loop : Nat} (unstopped : before.Unstopped loop)
    {done : List (Appointment υ)} (heeds : Heeds before after done) : after.Unstopped loop := by
  obtain ⟨hrunning, hstopped⟩ := heeds.running loop unstopped.running
  have hnever := unstopped.never
  rw [heeds.agenda] at hnever
  have hdone : done.any (·.action.stops) = false := by
    simpa using fun appointment hmem => hnever appointment (List.mem_append_left _ hmem)
  rw [unstopped.going, hdone] at hstopped
  exact ⟨hrunning, hstopped, fun appointment hmem =>
    hnever appointment (List.mem_append_right done hmem)⟩

theorem Unstopped.loopFor (node : Node σ υ) (pace : Pace) {loop : Nat} (ticks : Nat) :
    ∀ shift : Shift σ υ, shift.Unstopped loop → (shift.loopFor node pace ticks).1 = false := by
  induction ticks with
  | zero => exact fun _ _ => rfl
  | succ ticks ih =>
      intro shift unstopped
      obtain ⟨htime, hagenda, hstopped, hsettles⟩ := settle_frame shift
      have hsettled := unstopped.heeds hsettles
      have hwait : shift.settle.restUntil node (shift.time + pace.interval) shift.settle.agenda =
          shift.settle.passUntil node (shift.time + pace.interval) :=
        (restUntil_of_later node shift.settle.agenda shift.settle hsettled.running hsettled.going
          fun appointment hmem hstops =>
            absurd hstops (by simp [hsettled.never appointment hmem])).1
      obtain ⟨done, hrest⟩ := Heeds.passUntil node
        (htime ▸ Nat.le_add_right shift.time pace.interval :
          shift.settle.time ≤ shift.time + pace.interval)
      have hrested := hsettled.heeds hrest
      obtain ⟨kept, htick⟩ := Heeds.of_phases (phases_tick node pace
        (shift.settle.passUntil node (shift.time + pace.interval)))
      rw [Shift.loopFor, rest_of_going node _ unstopped.going]
      simp only [hwait, hrested.going, Bool.false_eq_true, if_false]
      exact ih _ (hrested.heeds htick)

/-- A loop that is followed until the last appointment is over ends exactly if it is ever told to
stop. -/
theorem listen_ends_iff (node : Node σ υ) (pace : Pace) {shift : Shift σ υ}
    (sorted : shift.agenda.Pairwise (·.time ≤ ·.time)) (cancelled : Bool) :
    (shift.listen node pace cancelled).1 = true ↔
      cancelled = true ∨ ∃ c, firstStop shift.agenda = some c := by
  have hends : ∀ {c : Nat}, (cancelled = true ∧ c ≤ shift.time ∨
      cancelled = false ∧ firstStop shift.agenda = some c) →
        (shift.listen node pace cancelled).1 = true := by
    intro c hstop
    obtain ⟨-, last, hlast, -⟩ := polls_listen node pace shift sorted hstop
    rw [hlast]
  cases cancelled with
  | true => exact ⟨fun _ => Or.inl rfl, fun _ => hends (Or.inl ⟨rfl, Nat.le_refl _⟩)⟩
  | false =>
      cases hfirst : firstStop shift.agenda with
      | some c => exact ⟨fun _ => Or.inr ⟨c, rfl⟩, fun _ => hends (Or.inr ⟨rfl, hfirst⟩)⟩
      | none =>
          have hnever : ∀ appointment ∈ shift.agenda, appointment.action.stops = false := by
            rw [firstStop, Option.map_eq_none_iff, List.find?_eq_none] at hfirst
            exact fun appointment hmem => Bool.eq_false_iff.mpr (hfirst appointment hmem)
          have hstart : (shift.startLoop false).Unstopped shift.watcher.loops :=
            ⟨⟨rfl, fun _ => rfl⟩, rfl, hnever⟩
          rw [listen, Unstopped.loopFor node pace _ _ hstart]
          simp

end BlockWatch.Shift
