import BlockWatch.Proofs.Shift.Frame
import BlockWatch.Proofs.Shift.Head
import BlockWatch.Proofs.Shift.Notifications
import BlockWatch.Session

/-!
# The strides of an errand

Normative source: SPEC_FULL.md, section 5:

    one long-lived background task (`Listen`) drives the sequential state machine

Every errand of a watcher is made of a few kinds of strides (`Stride`): something happens while it
waits, it looks at the head, it attempts a block, it runs the tasks that are queued, it writes
something down, or a loop begins or ends.  `Stride.cases` says what they come to: a stride is still,
it runs the tasks, or it processes a block.  Only the last moves the watcher on (`Completes`); still
strides tell nobody anything and queue nothing, and running tasks does not move the watcher either
(`Quiet`).

Invariants of all runs are preserved by strides, at every moment.  Where that is too fine, `Legs`
are strides without single moves, and `Beats` are the ticks of an errand that only ticks, with what
happens between them.
-/

set_option autoImplicit false

namespace BlockWatch

variable {σ υ : Type}

/-! ## Successes -/

/-- An attempt that processed a block: the moments at which it began and ended, and the number of
the block. -/
structure Success where
  before : Snapshot
  after : Snapshot
  number : String

/-- The attempt that processed a block. -/
def Event.success? : Event → Option Success
  | .attempted before after (.ok (some number)) => some ⟨before, after, number⟩
  | _ => none

/-- An event that tells of no processed block. -/
def Event.IsQuiet (event : Event) : Prop := event.success? = none

/-- An event that neither tells of a processed block nor is what tasks come to. -/
structure Event.IsStill (event : Event) : Prop where
  quiet : event.IsQuiet
  announcement : event.announcement? = none
  notification : event.notification? = none

theorem Event.isStill_of_underWay {event : Event} (h : event.IsUnderWay) : event.IsStill := by
  cases event with
  | asked time ask => exact ⟨rfl, rfl, rfl⟩
  | answered time ask answer => exact ⟨rfl, rfl, rfl⟩
  | resolving time place hash => exact ⟨rfl, rfl, rfl⟩
  | recorded record => exact ⟨rfl, rfl, rfl⟩
  | observed result => exact h.elim
  | attempted before after result => exact h.elim
  | announced number cache => exact h.elim
  | notified notification => exact h.elim

theorem Event.isStill_attempted {result : Except Failure (Option String)}
    (h : ∀ number, result ≠ .ok (some number)) (before after : Snapshot) :
    (Event.attempted before after result).IsStill := by
  refine ⟨?_, rfl, rfl⟩
  cases result with
  | error failure => rfl
  | ok processed =>
      cases processed with
      | none => rfl
      | some number => exact absurd rfl (h number)

theorem Event.isQuiet_of_tiding {event : Event} (h : event.IsTiding) : event.IsQuiet := by
  cases event with
  | announced number cache => rfl
  | notified notification => rfl
  | recorded record => rfl
  | _ => exact h.elim

/-- An errand on which a watcher does nothing but tick. -/
def Errand.OnlyTicks : Errand → Prop
  | .tick => True
  | .listen _ => True
  | _ => False

namespace Shift

/-! ## Quiet work -/

/-- Work in which events of some kind are observed, while the watcher does not move on. -/
structure Calm (kind : Event → Prop) (before after : Shift σ υ) : Prop where
  history : ∃ events, after.history = events ++ before.history ∧ ∀ event ∈ events, kind event
  agenda : after.agenda <:+ before.agenda
  grows : Cache.Grows before.cache after.cache
  current : after.watcher.current = before.watcher.current
  nodup : before.watcher.subscriptions.Nodup → after.watcher.subscriptions.Nodup
  /-- the outlet stays as it is as long as nobody is going to drop the receiver -/
  outlet : (∀ appointment ∈ before.agenda, appointment.action ≠ .dropReceiver) →
    after.watcher.outlet = before.watcher.outlet

/-- Work that processes no block. -/
abbrev Quiet (before after : Shift σ υ) : Prop := Calm Event.IsQuiet before after

/-- Work that processes no block, tells nobody anything, and queues nothing. -/
structure Still (before after : Shift σ υ) : Prop where
  calm : Calm Event.IsStill before after
  tasks : after.watcher.tasks = before.watcher.tasks

namespace Calm

variable {kind : Event → Prop}

theorem refl (shift : Shift σ υ) : Calm kind shift shift where
  history := ⟨[], rfl, by simp⟩
  agenda := List.suffix_rfl
  grows := Cache.Grows.refl _
  current := rfl
  nodup h := h
  outlet _ := rfl

theorem trans {before middle after : Shift σ υ} (first : Calm kind before middle)
    (last : Calm kind middle after) : Calm kind before after where
  history := by
    obtain ⟨early, hearly, hcalmEarly⟩ := first.history
    obtain ⟨late, hlate, hcalmLate⟩ := last.history
    refine ⟨late ++ early, by rw [hlate, hearly, List.append_assoc], ?_⟩
    intro event hevent
    exact (List.mem_append.mp hevent).elim (hcalmLate event) (hcalmEarly event)
  agenda := last.agenda.trans first.agenda
  grows := first.grows.trans last.grows
  current := last.current.trans first.current
  nodup h := last.nodup (first.nodup h)
  outlet h := by
    rw [last.outlet fun appointment hmem => h appointment (first.agenda.subset hmem),
      first.outlet h]

theorem mono {kind' : Event → Prop} {before after : Shift σ υ} (calm : Calm kind before after)
    (h : ∀ event, kind event → kind' event) : Calm kind' before after :=
  { calm with
    history := by
      obtain ⟨events, hevents, hkind⟩ := calm.history
      exact ⟨events, hevents, fun event hevent => h event (hkind event hevent)⟩ }

theorem of_events (shift : Shift σ υ) {events : List Event} (h : ∀ event ∈ events, kind event) :
    Calm kind shift { shift with history := events ++ shift.history } :=
  { (refl shift : Calm kind shift shift) with history := ⟨events, rfl, h⟩ }

/-- Tasks process no block. -/
theorem settle (shift : Shift σ υ) : Quiet shift shift.settle := by
  obtain ⟨told, hsettle, htold⟩ := settle_told shift
  have hquiet := of_events shift fun event hevent => Event.isQuiet_of_tiding (htold event hevent)
  rw [hsettle]
  exact { hquiet with }

end Calm

namespace Still

theorem quiet {before after : Shift σ υ} (still : Still before after) : Quiet before after :=
  still.calm.mono fun _ => Event.IsStill.quiet

theorem refl (shift : Shift σ υ) : Still shift shift := ⟨Calm.refl shift, rfl⟩

theorem trans {before middle after : Shift σ υ} (first : Still before middle)
    (last : Still middle after) : Still before after :=
  ⟨first.calm.trans last.calm, last.tasks.trans first.tasks⟩

theorem observe (shift : Shift σ υ) {event : Event} (still : event.IsStill) :
    Still shift (shift.observe event) := by
  have hsingle : ∀ other ∈ [event], other.IsStill := by
    intro other hother
    exact List.mem_singleton.mp hother ▸ still
  exact ⟨Calm.of_events shift hsingle, rfl⟩

theorem write (shift : Shift σ υ) (records : List Record) : Still shift (shift.write records) := by
  rw [write_eq]
  refine ⟨Calm.of_events shift fun event hevent => ?_, rfl⟩
  obtain ⟨record, -, rfl⟩ := List.mem_map.mp (List.mem_reverse.mp hevent)
  exact ⟨rfl, rfl, rfl⟩

theorem foldl_undergo_outlet (actions : List (Action υ))
    (h : ∀ action ∈ actions, action ≠ .dropReceiver) :
    ∀ watcher : Watcher, (actions.foldl Watcher.undergo watcher).outlet = watcher.outlet := by
  induction actions with
  | nil => exact fun _ => rfl
  | cons action rest ih =>
      intro watcher
      rw [List.foldl_cons, ih fun other hother => h other (List.mem_cons_of_mem action hother),
        Watcher.undergo_outlet watcher (h action List.mem_cons_self)]

theorem foldl_undergo_nodup (actions : List (Action υ)) :
    ∀ watcher : Watcher, watcher.subscriptions.Nodup →
      (actions.foldl Watcher.undergo watcher).subscriptions.Nodup := by
  induction actions with
  | nil => exact fun _ h => h
  | cons action rest ih => exact fun watcher h => ih _ (Watcher.nodup_undergo h action)

theorem of_account {start now : Shift σ υ} {events : List Event}
    {meanwhile : List (Appointment υ)} (account : Account start now events meanwhile) :
    Still start now where
  calm.history := ⟨events, account.history,
    fun event hevent => Event.isStill_of_underWay (account.underWay event hevent)⟩
  calm.agenda := ⟨meanwhile, account.agenda.symm⟩
  calm.grows := account.grows
  calm.current := account.leftAlone.current
  calm.nodup h := by
    rw [account.watcher]
    exact foldl_undergo_nodup _ _ h
  calm.outlet h := by
    rw [account.watcher]
    apply foldl_undergo_outlet
    intro action haction
    obtain ⟨appointment, hkept, rfl⟩ := List.mem_map.mp haction
    exact h appointment (account.agenda ▸ List.mem_append_left _ hkept)
  tasks := account.leftAlone.tasks

theorem of_moves {node : Node σ υ} {start now : Shift σ υ} (moves : Moves node start now) :
    Still start now := by
  obtain ⟨_, _, account⟩ := Account.of_moves moves
  exact of_account account

end Still

/-! ## A look at the head -/

/-- A look at the head changes at most the newest head, to a quantity. -/
theorem still_observeHead (node : Node σ υ) (shift : Shift σ υ) :
    Still shift (shift.observeHead node).2 := by
  obtain ⟨listened, _, answer, hmoves, -, htold⟩ := observeHead_told node shift
  have hheard : Still listened { listened with watcher := listened.watcher.hear answer } :=
    ⟨⟨⟨[], rfl, by simp⟩, List.suffix_rfl, Cache.Grows.refl _,
      listened.watcher.hear_current answer,
      fun nodup => (listened.watcher.hear_subscriptions answer).symm ▸ nodup,
      fun _ => listened.watcher.hear_outlet answer⟩, listened.watcher.hear_tasks answer⟩
  rw [htold]
  exact ((Still.of_moves hmoves).trans hheard).trans (Still.observe _ ⟨rfl, rfl, rfl⟩)

/-! ## Attempts -/

/-- An attempt processes a block that was chosen: after still work the block is marked, becomes the
current one, and is going to be announced to those who were subscribed when the attempt began. -/
structure Completes (shift worked after : Shift σ υ) (number : String) : Prop where
  candidate : shift.watcher.candidate shift.cache = .ok (some number)
  still : Still shift worked
  history : after.history =
    .attempted shift.snapshot after.snapshot (.ok (some number)) :: worked.history
  agenda : after.agenda = worked.agenda
  watcher : after.watcher =
    { worked.watcher with
      current := some number
      tasks := worked.watcher.tasks ++ [.announce number shift.watcher.subscriptions] }
  stored : ∃ block, after.cache.block number = .ok block
  marked : worked.cache.markProcessed number = .ok after.cache

theorem Completes.grows {shift worked after : Shift σ υ} {number : String}
    (completes : Completes shift worked after number) : Cache.Grows shift.cache after.cache :=
  completes.still.calm.grows.trans (Cache.grows_markProcessed completes.marked)

/-- The shift in which a block was processed, at the end of its attempt. -/
def complete (shift worked : Shift σ υ) (number : String) (cache : Cache) : Shift σ υ :=
  let after :=
    { worked with cache, watcher := { worked.watcher with current := some number } }.spawn
      [.announce number shift.watcher.subscriptions]
  after.observe (.attempted shift.snapshot after.snapshot (.ok (some number)))

theorem completes_of_moves {node : Node σ υ} {shift worked : Shift σ υ} {number : String}
    {block : Block} {cache : Cache}
    (candidate : shift.watcher.candidate shift.cache = .ok (some number))
    (moves : Moves node shift worked) (stored : worked.cache.block number = .ok block)
    (marked : worked.cache.markProcessed number = .ok cache) :
    Completes shift worked (shift.complete worked number cache) number where
  candidate := candidate
  still := Still.of_moves moves
  history := rfl
  agenda := rfl
  watcher := rfl
  stored := ⟨block, (Cache.grows_markProcessed marked).block stored⟩
  marked := marked

theorem Ending.completes {node : Node σ υ} {shift after : Shift σ υ} {events : List Event}
    {number : String} (ending : Ending node shift events (.ok (some number)) after) :
    ∃ worked, Completes shift worked
      (after.observe (.attempted shift.snapshot after.snapshot (.ok (some number)))) number := by
  cases ending with
  | @processed _ _ worked block cache candidate moves history first stored taken marked =>
      exact ⟨worked, completes_of_moves candidate moves stored marked⟩

theorem attempt_still_or_completes (node : Node σ υ) (pace : Pace) (shift : Shift σ υ) :
    Still shift (shift.attempt node pace).2 ∨
      ∃ worked number, Completes shift worked (shift.attempt node pace).2 number := by
  have hstill : ∀ {worked : Shift σ υ} {result : Except Failure (Option String)},
      Still shift worked → (∀ number, result ≠ .ok (some number)) →
        Still shift (worked.observe (.attempted shift.snapshot worked.snapshot result)) := by
    intro worked result hworked hnone
    exact hworked.trans (Still.observe worked (Event.isStill_attempted hnone _ _))
  obtain ⟨events, result, after, hending, -, hattempt⟩ := ending_attempt node pace shift
  rw [hattempt]
  cases hending with
  | undecided candidate => exact Or.inl (hstill (Still.refl shift) (by simp))
  | idle candidate => exact Or.inl (hstill (Still.refl shift) (by simp))
  | withheld candidate moves history unavailable =>
      exact Or.inl (hstill (Still.of_moves moves) (by simp))
  | setback candidate moves history first =>
      exact Or.inl (hstill (Still.of_moves moves) (by simp))
  | @processed number _ worked block cache candidate moves history first stored taken marked =>
      obtain ⟨worked, hcompletes⟩ :=
        (Ending.processed candidate moves history first stored taken marked).completes
      exact Or.inr ⟨worked, number, hcompletes⟩

/-! ## Strides -/

/-- One part of an errand. -/
inductive Stride (node : Node σ υ) (pace : Pace) : Shift σ υ → Shift σ υ → Prop
  /-- something happens while the watcher waits -/
  | move {shift after : Shift σ υ} (move : Move node shift after) : Stride node pace shift after
  /-- the head is looked at -/
  | observe {shift : Shift σ υ} : Stride node pace shift (shift.observeHead node).2
  /-- a block is attempted -/
  | attempt {shift : Shift σ υ} : Stride node pace shift (shift.attempt node pace).2
  /-- the tasks run -/
  | settle {shift : Shift σ υ} : Stride node pace shift shift.settle
  /-- something is written down -/
  | write {shift : Shift σ υ} (records : List Record) : Stride node pace shift (shift.write records)
  /-- a loop begins or ends -/
  | loop {shift : Shift σ υ} (running : Option Nat) (stopped : Bool) (loops : Nat)
      (handle : Option Nat) :
      Stride node pace shift
        { shift with loop := running, stopped, watcher := { shift.watcher with loops, handle } }

/-- Any number of strides. -/
abbrev Strides (node : Node σ υ) (pace : Pace) : Shift σ υ → Shift σ υ → Prop :=
  Relation.ReflTransGen (Stride node pace)

/-- A stride is still, runs the tasks, or processes a block. -/
theorem Stride.cases {node : Node σ υ} {pace : Pace} {shift after : Shift σ υ}
    (stride : Stride node pace shift after) :
    Still shift after ∨ after = shift.settle ∨
      ∃ worked number, Completes shift worked after number := by
  cases stride with
  | move move => exact Or.inl (Still.of_moves (.single move))
  | observe => exact Or.inl (still_observeHead node shift)
  | attempt => exact (attempt_still_or_completes node pace shift).imp_right Or.inr
  | settle => exact Or.inr (Or.inl rfl)
  | write records => exact Or.inl (Still.write shift records)
  | loop running stopped loops handle =>
      exact Or.inl ⟨⟨⟨[], rfl, by simp⟩, List.suffix_rfl, Cache.Grows.refl _, rfl, fun h => h,
        fun _ => rfl⟩, rfl⟩

theorem Stride.quiet_or_completes {node : Node σ υ} {pace : Pace} {shift after : Shift σ υ}
    (stride : Stride node pace shift after) :
    Quiet shift after ∨ ∃ worked number, Completes shift worked after number := by
  rcases stride.cases with hstill | rfl | hcompletes
  · exact Or.inl hstill.quiet
  · exact Or.inl (Calm.settle shift)
  · exact Or.inr hcompletes

/-- Run lemma: the cache only grows. -/
theorem Strides.grows {node : Node σ υ} {pace : Pace} {start last : Shift σ υ}
    (strides : Strides node pace start last) : Cache.Grows start.cache last.cache := by
  induction strides with
  | refl => exact Cache.Grows.refl _
  | tail _ stride ih =>
      rcases stride.quiet_or_completes with hquiet | ⟨_, _, hcompletes⟩
      · exact ih.trans hquiet.grows
      · exact ih.trans hcompletes.grows

/-- A stride extends the history and works off the agenda. -/
theorem Stride.suffixes {node : Node σ υ} {pace : Pace} {shift after : Shift σ υ}
    (stride : Stride node pace shift after) :
    shift.history <:+ after.history ∧ after.agenda <:+ shift.agenda := by
  rcases stride.quiet_or_completes with hquiet | ⟨worked, number, hcompletes⟩
  · obtain ⟨events, hevents, -⟩ := hquiet.history
    exact ⟨⟨events, hevents.symm⟩, hquiet.agenda⟩
  · obtain ⟨events, hevents, -⟩ := hcompletes.still.calm.history
    refine ⟨?_, hcompletes.agenda ▸ hcompletes.still.calm.agenda⟩
    rw [hcompletes.history, hevents]
    exact List.suffix_append (_ :: events) _

theorem Strides.suffixes {node : Node σ υ} {pace : Pace} {start last : Shift σ υ}
    (strides : Strides node pace start last) :
    start.history <:+ last.history ∧ last.agenda <:+ start.agenda := by
  induction strides with
  | refl => exact ⟨List.suffix_rfl, List.suffix_rfl⟩
  | tail _ stride ih =>
      exact ⟨ih.1.trans stride.suffixes.1, stride.suffixes.2.trans ih.2⟩

theorem Moves.strides {node : Node σ υ} {start now : Shift σ υ} (moves : Moves node start now)
    (pace : Pace) : Strides node pace start now :=
  Relation.ReflTransGen.mono (fun _ _ move => .move move) _ _ moves

/-! ## Legs

A stride may be any move.  The parts of an errand are less than that: outside a look at the head and
an attempt nothing is asked and nothing is learned. -/

/-- One part of an errand. -/
inductive Leg (node : Node σ υ) (pace : Pace) : Shift σ υ → Shift σ υ → Prop
  /-- the next appointment is kept -/
  | keep {shift : Shift σ υ} {appointment : Appointment υ} {rest : List (Appointment υ)}
      (next : shift.agenda = appointment :: rest) :
      Leg node pace shift { shift.keep node appointment with agenda := rest }
  /-- time passes -/
  | pass {shift : Shift σ υ} {time : Nat} (later : shift.time ≤ time) :
      Leg node pace shift { shift with time }
  /-- the head is looked at -/
  | observe {shift : Shift σ υ} : Leg node pace shift (shift.observeHead node).2
  /-- a block is attempted -/
  | attempt {shift : Shift σ υ} : Leg node pace shift (shift.attempt node pace).2
  /-- the tasks run -/
  | settle {shift : Shift σ υ} : Leg node pace shift shift.settle
  /-- something is written down -/
  | write {shift : Shift σ υ} (records : List Record) : Leg node pace shift (shift.write records)
  /-- a loop begins or ends -/
  | loop {shift : Shift σ υ} (running : Option Nat) (stopped : Bool) (loops : Nat)
      (handle : Option Nat) :
      Leg node pace shift
        { shift with loop := running, stopped, watcher := { shift.watcher with loops, handle } }

/-- Any number of legs. -/
abbrev Legs (node : Node σ υ) (pace : Pace) : Shift σ υ → Shift σ υ → Prop :=
  Relation.ReflTransGen (Leg node pace)

theorem Leg.stride {node : Node σ υ} {pace : Pace} {shift after : Shift σ υ}
    (leg : Leg node pace shift after) : Stride node pace shift after := by
  cases leg with
  | keep next => exact .move (.keep next)
  | pass later => exact .move (.pass later)
  | observe => exact .observe
  | attempt => exact .attempt
  | settle => exact .settle
  | write records => exact .write records
  | loop running stopped loops handle => exact .loop running stopped loops handle

theorem Legs.strides {node : Node σ υ} {pace : Pace} {start last : Shift σ υ}
    (legs : Legs node pace start last) : Strides node pace start last :=
  Relation.ReflTransGen.mono (fun _ _ leg => leg.stride) _ _ legs

/-! ## Beats

Between two ticks a watcher does nothing itself but run tasks, and an errand that only ticks is made
of ticks and of what happens in between. -/

/-- Something that happens between two ticks. -/
inductive Pause (node : Node σ υ) : Shift σ υ → Shift σ υ → Prop
  /-- the next appointment is kept -/
  | keep {shift : Shift σ υ} {appointment : Appointment υ} {rest : List (Appointment υ)}
      (next : shift.agenda = appointment :: rest) :
      Pause node shift { shift.keep node appointment with agenda := rest }
  /-- time passes -/
  | pass {shift : Shift σ υ} {time : Nat} (later : shift.time ≤ time) :
      Pause node shift { shift with time }
  /-- the tasks run -/
  | settle {shift : Shift σ υ} : Pause node shift shift.settle
  /-- a loop begins or ends -/
  | loop {shift : Shift σ υ} (running : Option Nat) (stopped : Bool) (loops : Nat)
      (handle : Option Nat) :
      Pause node shift
        { shift with loop := running, stopped, watcher := { shift.watcher with loops, handle } }

/-- One part of an errand that only ticks. -/
inductive Beat (node : Node σ υ) (pace : Pace) : Shift σ υ → Shift σ υ → Prop
  | pause {shift after : Shift σ υ} (pause : Pause node shift after) : Beat node pace shift after
  | tick {shift : Shift σ υ} : Beat node pace shift (shift.tick node pace)

/-- Any number of beats. -/
abbrev Beats (node : Node σ υ) (pace : Pace) : Shift σ υ → Shift σ υ → Prop :=
  Relation.ReflTransGen (Beat node pace)

theorem legs_tick (node : Node σ υ) (pace : Pace) (shift : Shift σ υ) :
    Legs node pace shift (shift.tick node pace) :=
  .tail (.tail (.tail (.single .observe) (.write _)) .attempt) (.write _)

theorem Beat.legs {node : Node σ υ} {pace : Pace} {shift after : Shift σ υ}
    (beat : Beat node pace shift after) : Legs node pace shift after := by
  cases beat with
  | pause pause =>
      cases pause with
      | keep next => exact .single (.keep next)
      | pass later => exact .single (.pass later)
      | settle => exact .single .settle
      | loop running stopped loops handle => exact .single (.loop running stopped loops handle)
  | tick => exact legs_tick node pace shift

theorem Beats.legs {node : Node σ υ} {pace : Pace} {start last : Shift σ υ}
    (beats : Beats node pace start last) : Legs node pace start last := by
  induction beats with
  | refl => exact .refl
  | tail _ beat ih => exact ih.trans beat.legs

theorem beats_restUntil (node : Node σ υ) (pace : Pace) (time : Nat)
    (agenda : List (Appointment υ)) :
    ∀ shift : Shift σ υ, shift.time ≤ time →
      Beats node pace { shift with agenda } (shift.restUntil node time agenda) := by
  induction agenda with
  | nil =>
      intro shift htime
      unfold restUntil
      split
      · exact .refl
      · exact .single (.pause (.pass htime))
  | cons appointment rest ih =>
      intro shift htime
      unfold restUntil
      split
      · exact .refl
      · split
        · rename_i hbefore
          have hkeep : Beat node pace { shift with agenda := appointment :: rest } _ :=
            .pause (.keep rfl)
          have hlater : (shift.keep node appointment).time ≤ max shift.time appointment.time := by
            show (shift.act node appointment.action).2.time ≤ _
            rw [act_time]
            exact Nat.le_max_left _ _
          have hpass : Beat node pace { shift.keep node appointment with agenda := rest }
              { shift.keep node appointment with
                agenda := rest, time := max shift.time appointment.time } :=
            .pause (.pass hlater)
          have hrest := ih
            { shift.keep node appointment with time := max shift.time appointment.time }
            (Nat.max_le.mpr ⟨htime, Nat.le_of_lt hbefore⟩)
          refine Relation.ReflTransGen.head ?_ (.head hpass hrest)
          simpa only [keep, act_agenda] using hkeep
        · exact .single (.pause (.pass htime))

theorem beats_rest (node : Node σ υ) (pace : Pace) {time : Nat} {shift : Shift σ υ}
    (later : shift.time ≤ time) : Beats node pace shift (shift.rest node time) := by
  unfold rest
  split
  · exact .refl
  · have hlater : shift.settle.time ≤ time := by
      obtain ⟨told, hsettle, -⟩ := settle_told shift
      rw [hsettle]
      exact later
    exact .head (.pause .settle)
      (beats_restUntil node pace time shift.settle.agenda shift.settle hlater)

theorem beats_loopFor (node : Node σ υ) (pace : Pace) (ticks : Nat) :
    ∀ shift : Shift σ υ, Beats node pace shift (loopFor node pace ticks shift).2 := by
  induction ticks with
  | zero =>
      intro shift
      exact .refl
  | succ ticks ih =>
      intro shift
      have hrest := beats_rest node pace (Nat.le_add_right shift.time pace.interval)
      unfold loopFor
      dsimp only
      split
      · exact hrest
      · exact (hrest.tail .tick).trans (ih _)

theorem beats_listen (node : Node σ υ) (pace : Pace) (shift : Shift σ υ) (cancelled : Bool) :
    Beats node pace shift (Session.run node pace shift (.listen cancelled)).2 := by
  have hlisten : Beats node pace shift (shift.listen node pace cancelled).2 :=
    Relation.ReflTransGen.head (.pause (.loop _ _ _ _)) (beats_loopFor node pace _ _)
  rcases hlast : shift.listen node pace cancelled with ⟨finished, last⟩
  rw [hlast] at hlisten
  cases finished with
  | true =>
      simp only [Session.run, hlast]
      exact hlisten
  | false =>
      simp only [Session.run, hlast]
      exact hlisten

theorem beats_leave (node : Node σ υ) (pace : Pace) (shift : Shift σ υ) :
    Beats node pace shift (Session.leave node shift) := by
  have hkept : ∀ (agenda : List (Appointment υ)) (shift : Shift σ υ),
      Beats node pace { shift with agenda }
        (agenda.foldl (Session.keepLeft node) { shift with agenda := [] }) := by
    intro agenda
    induction agenda with
    | nil => exact fun _ => .refl
    | cons appointment rest ih =>
        intro shift
        have hkeep : ∀ shift : Shift σ υ,
            Beats node pace { shift with agenda := appointment :: rest }
              (rest.foldl (Session.keepLeft node)
                ({ shift with agenda := [] }.keep node appointment)) := by
          intro shift
          have hkeep : Beat node pace { shift with agenda := appointment :: rest } _ :=
            .pause (.keep rfl)
          refine .head hkeep ?_
          have hrest := ih (shift.keep node appointment)
          simpa only [keep, act_agenda] using hrest
        rw [List.foldl_cons, Session.keepLeft]
        split
        · refine .head (.pause .settle) ?_
          rw [settle_agenda shift (appointment :: rest), settle_agenda shift []]
          exact hkeep shift.settle
        · exact hkeep shift
  exact Relation.ReflTransGen.head
    (.pause (.loop none shift.stopped shift.watcher.loops shift.watcher.handle))
    (hkept shift.agenda { shift with loop := none })

theorem beats_finish (node : Node σ υ) (pace : Pace) (shift : Shift σ υ) :
    Beats node pace shift (Session.finish node shift) :=
  (beats_leave node pace shift).tail (.pause .settle)

/-! ## Errands -/

/-- Errands on which a watcher only ticks are made of beats. -/
theorem beats_run (node : Node σ υ) (pace : Pace) (shift : Shift σ υ) {errand : Errand}
    (ticking : errand.OnlyTicks) :
    Beats node pace shift (Session.run node pace shift errand).2 := by
  cases errand with
  | observe => exact ticking.elim
  | attempt => exact ticking.elim
  | tick => exact .single .tick
  | listen cancelled => exact beats_listen node pace shift cancelled

/-- Every errand is made of legs. -/
theorem legs_run (node : Node σ υ) (pace : Pace) (shift : Shift σ υ) (errand : Errand) :
    Legs node pace shift (Session.run node pace shift errand).2 := by
  cases errand with
  | observe => exact .single .observe
  | attempt => exact .single .attempt
  | tick => exact legs_tick node pace shift
  | listen cancelled => exact (beats_listen node pace shift cancelled).legs

theorem strides_run (node : Node σ υ) (pace : Pace) (shift : Shift σ υ) (errand : Errand) :
    Strides node pace shift (Session.run node pace shift errand).2 :=
  (legs_run node pace shift errand).strides

end Shift

end BlockWatch
