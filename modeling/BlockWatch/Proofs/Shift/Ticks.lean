import BlockWatch.Proofs.Session.Counting
import BlockWatch.Proofs.Session.Progress
import BlockWatch.Proofs.Session.Retry
import BlockWatch.Proofs.Shift.Echo

/-!
# Ticks on a node that serves

Normative source: SPEC_FULL.md, section 4.3:

    Each poll tick runs `checkNewBlock` then `processNextBlock`, sequentially, never overlapping.

A node serves when it answers every question for a block or a transaction and announces one head all
the time (`Served`); this is a condition on what was observed, not on the node.  A tick on such a
node is a tick of the counter behind the watcher (`tick_of_served`): if a number is due after the
head was heard, the tick processes the block with this number, and otherwise the question for the
head is all that there is to it.

`Counter.first_iterate_tick` says where a counter is after any number of ticks.
-/

set_option autoImplicit false

namespace BlockWatch

variable {σ υ : Type}

/-! ## Answers of a node that serves -/

/-- Whether an event, if it is an answer, is one of a node that serves and announces `head`. -/
def Event.serves (head : String) : Event → Bool
  | .answered _ .head (.ok given) => given = head
  | .answered _ _ (.error _) => false
  | _ => true

/-- The answers among events are those of a node that serves and announces `head`. -/
def Served (head : String) (events : List Event) : Prop :=
  ∀ event ∈ events, event.serves head = true

instance (head : String) (events : List Event) : Decidable (Served head events) :=
  inferInstanceAs (Decidable (∀ event ∈ events, event.serves head = true))

theorem served_append {head : String} {early late : List Event} :
    Served head (early ++ late) ↔ Served head early ∧ Served head late := List.forall_mem_append

theorem served_reverse {head : String} {events : List Event} :
    Served head events.reverse ↔ Served head events := by
  simp only [Served, List.mem_reverse]

namespace Served

variable {head : String} {events : List Event}

theorem answer (served : Served head events) {time : Nat} {ask : Ask}
    {answer : Except Failure ask.Answer} (answered : .answered time ask answer ∈ events) :
    ∃ given, answer = .ok given := by
  cases answer with
  | error failure => cases ask <;> cases served _ answered
  | ok given => exact ⟨given, rfl⟩

theorem announced (served : Served head events) {time : Nat} {answer : Except Failure String}
    (answered : .answered time .head answer ∈ events) : answer = .ok head := by
  obtain ⟨given, rfl⟩ := served.answer answered
  exact congrArg Except.ok (of_decide_eq_true (served _ answered))

end Served

/-! ## Ticks of a counter -/

namespace Counter

/-- A counter that has heard of a head. -/
def hear (counter : Counter) (head : Int) : Counter := { counter with head := some head }

/-- A counter that has heard of a head, and has counted if a number was due. -/
def tick (head : Int) (counter : Counter) : Counter where
  current := (counter.hear head).due <|> counter.current
  head := some head

/-- The number that a counter counts first if the head stays where it is. -/
def first (counter : Counter) (head : Int) : Int :=
  match counter.current with
  | none => head
  | some current => current + 1

theorem due_hear (counter : Counter) (head : Int) :
    (counter.hear head).due =
      if counter.first head ≤ head then some (counter.first head) else none := by
  cases hcurrent : counter.current with
  | none => simp [hear, due, first, hcurrent]
  | some current =>
      have hbefore : current < head ↔ current + 1 ≤ head := Iff.rfl
      simp only [hear, due, first, hcurrent, hbefore]

theorem due_hear_eq_none_iff {counter : Counter} {head : Int} :
    (counter.hear head).due = none ↔ head < counter.first head := by
  rw [due_hear, ite_eq_right_iff, ← Int.not_le]
  simp

theorem due_hear_eq_some {counter : Counter} {head n : Int}
    (due : (counter.hear head).due = some n) : counter.first head = n ∧ n ≤ head := by
  rw [due_hear] at due
  split at due
  · rename_i hle
    cases due
    exact ⟨rfl, hle⟩
  · cases due

theorem tick_of_due {counter : Counter} {head : Int} (due : counter.first head ≤ head) :
    counter.tick head = { current := some (counter.first head), head := some head } := by
  rw [tick, due_hear, if_pos due]
  rfl

theorem tick_of_beyond {counter : Counter} {head : Int} (beyond : head < counter.first head) :
    counter.tick head = counter.hear head := by
  rw [tick, due_hear, if_neg (Int.not_le.mpr beyond)]
  rfl

theorem first_tick (counter : Counter) (head : Int) :
    (counter.tick head).first head =
      if counter.first head ≤ head then counter.first head + 1 else counter.first head := by
  by_cases hdue : counter.first head ≤ head
  · rw [tick_of_due hdue, if_pos hdue]
    rfl
  · rw [tick_of_beyond (Int.not_le.mp hdue), if_neg hdue]
    rfl

/-- The first number increases by one with every tick, until it is beyond the head. -/
theorem first_iterate_tick (counter : Counter) (head : Int) (n : Nat) :
    ((tick head)^[n] counter).first head =
      if counter.first head ≤ head then min (counter.first head + n) (head + 1)
      else counter.first head := by
  induction n with
  | zero =>
      split
      · simp; omega
      · rfl
  | succ n ih =>
      rw [Function.iterate_succ_apply', first_tick, ih]
      by_cases hdue : counter.first head ≤ head
      · rw [if_pos hdue, if_pos hdue]
        split <;> omega
      · rw [if_neg hdue, if_neg hdue, if_neg hdue]

theorem current_of_first {counter : Counter} {head : Int} (h : counter.first head = head + 1) :
    counter.current = some head := by
  unfold first at h
  split at h
  · omega
  · rename_i current hcurrent
    have hsame : current = head := by omega
    rw [hcurrent, hsame]

end Counter

namespace Shift

/-! ## The work of an attempt -/

/-- At a node that serves, an attempt processes the block that it chose. -/
theorem attempt_of_served (node : Node σ υ) (pace : Pace) {shift : Shift σ υ}
    {head number : String} {fresh : List Event}
    (candidate : shift.watcher.candidate shift.cache = .ok (some number))
    (history : (shift.attempt node pace).2.history = fresh ++ shift.history)
    (served : Served head fresh) : (shift.attempt node pace).1 = .ok (some number) := by
  obtain ⟨events, result, after, hending, hadvance, hattempt⟩ := ending_attempt node pace shift
  have hserved : after.history = events ++ shift.history → Served head events := by
    intro hafter event hevent
    have hfresh : fresh = .attempted shift.snapshot after.snapshot result :: events := by
      refine List.append_cancel_right (history.symm.trans ?_)
      rw [hattempt, List.cons_append, ← hafter]
      rfl
    exact served event (hfresh ▸ List.mem_cons_of_mem _ hevent)
  rw [hattempt]
  cases hending with
  | undecided other => rw [candidate] at other; cases other
  | idle other => rw [candidate] at other; cases other
  | @withheld chosen _ failure _ other moves hhistory unavailable =>
      obtain rfl : chosen = number := Option.some.inj (Except.ok.inj (other.symm.trans candidate))
      have hinquiry := inquiry_of_history node pace candidate hadvance hhistory
      cases hcached : shift.cache.blocks.contains chosen with
      | true => exact absurd (Or.inl (Cache.exists_block_of_contains hcached)) unavailable
      | false =>
          obtain ⟨time, answer, hanswered⟩ := hinquiry.answered hcached
          obtain ⟨block, rfl⟩ := (hserved hhistory).answer hanswered
          exact absurd (Or.inr ⟨time, block, hanswered⟩) unavailable
  | setback other moves hhistory first =>
      obtain ⟨late, time, hash, early, hsplit, -⟩ := Resolution.exists_of_firstSetback first
      have hanswered : Event.answered time (.transaction hash) (.error _) ∈ events :=
        hsplit ▸ List.mem_append_right late List.mem_cons_self
      obtain ⟨given, hgiven⟩ := (hserved hhistory).answer hanswered
      cases hgiven
  | processed other => rw [← other, candidate]

/-! ## The head -/

theorem cache_passUntil_observe (node : Node σ υ) (time : Nat) (shift : Shift σ υ) (event : Event) :
    ((shift.observe event).passUntil node time).cache = (shift.passUntil node time).cache := by
  have hforgotten : ∀ history : List Event, Echoes (.late 0) history shift.kept
      { shift with history := [], kept := [] } { shift with history } := by
    intro history
    exact ⟨rfl, rfl, rfl, rfl, (List.map_id _).symm, rfl, rfl⟩
  exact (((hforgotten (event :: shift.history)).passUntil node time).cache).trans
    ((hforgotten shift.history).passUntil node time).cache.symm

/-- The cache after a look at the head is the cache after waiting as long. -/
theorem cache_observeHead (node : Node σ υ) (shift : Shift σ υ) :
    (shift.observeHead node).2.cache =
      (shift.passUntil node (shift.observeHead node).2.time).cache := by
  have hasked : (shift.ask node .head).2.cache =
      (shift.passUntil node (shift.ask node .head).2.time).cache :=
    cache_passUntil_observe node _ shift (.asked shift.time .head)
  unfold observeHead lookAtHead
  rcases hask : shift.ask node .head with ⟨answer, heard⟩
  rw [hask] at hasked
  cases answer with
  | error failure => exact hasked
  | ok head =>
      dsimp only
      cases Quantity.decode head with
      | error failure => exact hasked
      | ok n => exact hasked

/-- What a look at the head comes to on a node that serves: the counter hears of the head, and one
question is all that there is to it. -/
structure Hears (node : Node σ υ) (shift heard : Shift σ υ) (head : Int) (seen : List Event) :
    Prop where
  observed : shift.observeHead node = (.ok (), heard)
  history : heard.history = seen ++ shift.history
  asks : seen.filterMap Event.ask? = [(shift.time, .head)]
  notifications : seen.filterMap Event.notification? = []
  attempts : attempts seen = []
  successes : successes seen = []
  current : heard.watcher.current = shift.watcher.current
  tasks : heard.watcher.tasks = shift.watcher.tasks
  sound : heard.watcher.Sound heard.cache
  natural : heard.watcher.Natural
  counter : heard.watcher.counter = shift.watcher.counter.hear head

theorem tick_of_observed {node : Node σ υ} {shift heard : Shift σ υ} (pace : Pace)
    (observed : shift.observeHead node = (.ok (), heard)) :
    shift.tick node pace =
      (heard.attempt node pace).2.write (attemptRecords (heard.attempt node pace).1) := by
  simp only [tick, observed]
  rfl

theorem hears_of_served (node : Node σ υ) {shift : Shift σ υ} {head : String} {h : Int}
    {seen : List Event} (sound : shift.watcher.Sound shift.cache) (natural : shift.watcher.Natural)
    (decoded : Quantity.decode head = .ok h) (nonneg : 0 ≤ h)
    (history : (shift.observeHead node).2.history = seen ++ shift.history)
    (served : Served head seen) : Hears node shift (shift.observeHead node).2 h seen := by
  have hcurrent := (still_observeHead node shift).calm.current
  have htasks := (still_observeHead node shift).tasks
  have hsound := (effect_observeHead node shift).watcherSound sound
  obtain ⟨listened, records, answer, hmoves, hhistory, htold⟩ := observeHead_told node shift
  rw [htold] at history hcurrent htasks hsound ⊢
  have hseen : seen = .observed (headResult answer) ::
      Event.exchange shift.time listened.time .head answer records :=
    List.append_cancel_right (history.symm.trans (congrArg (List.cons _) hhistory))
  have hanswered : Event.answered listened.time .head answer ∈ seen :=
    hseen ▸ List.mem_cons_of_mem _ List.mem_cons_self
  obtain rfl : answer = .ok head := served.announced hanswered
  have hhear : listened.watcher.hear (.ok head) =
      { listened.watcher with latest := some head } := by
    simp only [Watcher.hear, decoded]
  have hresult : headResult (.ok head) = .ok () := by
    simp only [headResult, Except.bind, decoded]
    rfl
  have hview : ∀ {β : Type} (view : Event → Option β), (∀ record, view (.recorded record) = none) →
      view (.observed (headResult (.ok head))) = none →
      view (.answered listened.time .head (.ok head)) = none →
      seen.filterMap view = (view (.asked shift.time .head)).toList := by
    intro β view hrecorded hobserved hanswered
    rw [hseen, List.filterMap_cons_none hobserved, Event.filterMap_exchange view hrecorded,
      hanswered]
    rfl
  refine ⟨htold.trans (by rw [hresult]), history, hview _ (fun _ => rfl) rfl rfl,
    hview _ (fun _ => rfl) rfl rfl, hview _ (fun _ => rfl) rfl rfl, hview _ (fun _ => rfl) rfl rfl,
    hcurrent, htasks, hsound, ?_, ?_⟩
  · show (listened.watcher.hear (.ok head)).Natural
    refine (hmoves.natural natural).hear ?_
    intro other n hother hn
    cases hother
    exact (Except.ok.inj (decoded.symm.trans hn)) ▸ nonneg
  · show (listened.watcher.hear (.ok head)).counter = _
    rw [hhear, Counter.hear, ← hmoves.counter]
    simp [Watcher.counter, Quantity.value?_of_decode decoded]

/-! ## The tick -/

/-- A tick processes the block with the number `n` and no other one. -/
structure Processes (after : Shift σ υ) (fresh : List Event) (n : Int) : Prop where
  once : ∃ success, successes fresh = [success] ∧ Quantity.decode success.number = .ok n ∧
    after.watcher.current = some success.number ∧
    after.cache.isProcessed success.number = .ok true

/-- A tick only asks for the head: it tells nobody anything, queues nothing, and leaves the current
block and the cache as they would be had the watcher only waited. -/
structure Idles (node : Node σ υ) (shift after : Shift σ υ) (fresh : List Event) : Prop where
  asks : fresh.filterMap Event.ask? = [(shift.time, .head)]
  notifications : fresh.filterMap Event.notification? = []
  tasks : after.watcher.tasks = shift.watcher.tasks
  current : after.watcher.current = shift.watcher.current
  cache : after.cache = (shift.passUntil node after.time).cache
  unchanged : shift.agenda = [] → after.cache = shift.cache

/-- If no number is due, a tick asks for the head and does nothing else. -/
theorem idles_of_hears {node : Node σ υ} {pace : Pace} {shift heard : Shift σ υ} {h : Int}
    {seen fresh : List Event} {result : Except Failure (Option String)}
    (hears : Hears node shift heard h seen)
    (idle : heard.attempt node pace =
      (result, heard.observe (.attempted heard.snapshot heard.snapshot result)))
    (history : (shift.tick node pace).history = fresh ++ shift.history) :
    (shift.tick node pace).watcher.counter = shift.watcher.counter.hear h ∧
      (attempts fresh).length = 1 ∧ Idles node shift (shift.tick node pace) fresh := by
  have htick := tick_of_observed pace hears.observed
  rw [idle, write_eq] at htick
  have hfresh : fresh = ((attemptRecords result).map Event.recorded).reverse ++
      .attempted heard.snapshot heard.snapshot result :: seen := by
    refine List.append_cancel_right (history.symm.trans ?_)
    rw [htick, List.append_assoc, List.cons_append, ← hears.history]
    rfl
  have hrecords : ∀ {β : Type} {view : Event → Option β},
      (∀ record, view (.recorded record) = none) →
      ((attemptRecords result).map Event.recorded).reverse.filterMap view = [] := by
    intro β view hrecorded
    rw [List.filterMap_reverse, Event.filterMap_recorded hrecorded, List.reverse_nil]
  have hcache := cache_observeHead node shift
  rw [hears.observed] at hcache
  rw [htick]
  refine ⟨hears.counter, ?_, ?_, ?_, hears.tasks, hears.current, hcache, ?_⟩
  · rw [hfresh, attempts_append, attempts, hrecords fun _ => rfl]
    exact congrArg (·.length + 1) hears.attempts
  · rw [hfresh, List.filterMap_append, hrecords fun _ => rfl]
    exact hears.asks
  · rw [hfresh, List.filterMap_append, hrecords fun _ => rfl]
    exact hears.notifications
  · intro hagenda
    refine Eq.trans hcache ?_
    simp only [passUntil, hagenda, keepBefore]

/-- If a number is due, a tick processes its block. -/
theorem processes_of_hears {node : Node σ υ} {pace : Pace} {shift heard : Shift σ υ} {h n : Int}
    {seen fresh : List Event} {head number : String} (hears : Hears node shift heard h seen)
    (candidate : heard.watcher.candidate heard.cache = .ok (some number))
    (decoded : Quantity.decode number = .ok n)
    (history : (shift.tick node pace).history = fresh ++ shift.history)
    (served : Served head fresh) :
    (shift.tick node pace).watcher.counter = ⟨some n, some h⟩ ∧
      (attempts fresh).length = 1 ∧ Processes (shift.tick node pace) fresh n := by
  have htick := tick_of_observed pace hears.observed
  have hstride : Stride node pace heard (heard.attempt node pace).2 := .attempt
  obtain ⟨done, hdone⟩ := hstride.suffixes.1
  have hfresh : fresh = ((attemptRecords (heard.attempt node pace).1).map Event.recorded).reverse ++
      (done ++ seen) := by
    refine List.append_cancel_right (history.symm.trans ?_)
    rw [htick, write_eq, ← hdone, hears.history, List.append_assoc, List.append_assoc]
  have hserved : Served head done := by
    rw [hfresh] at served
    exact (served_append.mp (served_append.mp served).2).1
  have hresult : (heard.attempt node pace).1 = .ok (some number) :=
    attempt_of_served node pace candidate hdone.symm hserved
  -- a success leaves nothing to write down
  rw [hresult] at htick hfresh
  replace htick : shift.tick node pace = (heard.attempt node pace).2 := htick
  replace hfresh : fresh = done ++ seen := hfresh
  obtain ⟨hcurrent, hcounter⟩ : (heard.attempt node pace).2.watcher.current = some number ∧
      (heard.attempt node pace).2.watcher.counter =
        { heard.watcher.counter with current := some n } := by
    rcases (worksOn_of_candidate node pace candidate decoded).result with
      ⟨-, hworked⟩ | ⟨failure, hfailed, -⟩
    · exact hworked
    · rw [hresult] at hfailed
      cases hfailed
  obtain ⟨events, result, after, hending, -, hattempt⟩ := ending_attempt node pace heard
  obtain rfl : result = .ok (some number) := by rw [← hresult, hattempt]
  obtain ⟨worked, hcompletes⟩ := hending.completes
  have hsuccesses : successes done.reverse = [⟨heard.snapshot, after.snapshot, number⟩] := by
    have hrow := successes_completes [] hcompletes
    rw [hattempt] at hdone
    rw [← hdone, List.nil_append, List.nil_append, List.reverse_append, successes_append] at hrow
    exact List.append_cancel_left hrow
  have hattempts : attempts done = [⟨heard.snapshot, .ok (some number)⟩] := by
    have hrow := attempts_attempt node pace heard
    rw [← hdone, attempts_append, hresult] at hrow
    exact List.append_cancel_right hrow
  have hsound := (effect_attempt node pace heard).watcherSound hears.sound
  rw [htick]
  refine ⟨?_, ?_, ⟨heard.snapshot, after.snapshot, number⟩, ?_, decoded, hcurrent,
    (hsound.current number hcurrent).2.2⟩
  · rw [hcounter, hears.counter]
    rfl
  · rw [hfresh, attempts_append, hattempts, hears.attempts]
    rfl
  · rw [hfresh, successes_append, hears.successes, List.append_nil]
    simpa [successes, List.filterMap_reverse] using hsuccesses

/-- At a node that serves, a tick is one tick of the counter: it processes the block with the number
that is due, and idles if none is. -/
theorem tick_of_served (node : Node σ υ) (pace : Pace) {shift : Shift σ υ} {head : String} {h : Int}
    {fresh : List Event} (sound : shift.watcher.Sound shift.cache)
    (natural : shift.watcher.Natural) (decoded : Quantity.decode head = .ok h) (nonneg : 0 ≤ h)
    (history : (shift.tick node pace).history = fresh ++ shift.history)
    (served : Served head fresh) :
    (shift.tick node pace).watcher.counter = shift.watcher.counter.tick h ∧
      (attempts fresh).length = 1 ∧
      (shift.watcher.counter.first h ≤ h →
        Processes (shift.tick node pace) fresh (shift.watcher.counter.first h)) ∧
      (h < shift.watcher.counter.first h → Idles node shift (shift.tick node pace) fresh) := by
  obtain ⟨seen, hseen, -⟩ := (still_observeHead node shift).calm.history
  have hfurther : Strides node pace (shift.observeHead node).2 (shift.tick node pace) :=
    .tail (.tail (.single (.write _)) .attempt) (.write _)
  obtain ⟨done, hdone⟩ := hfurther.suffixes.1
  have hfresh : fresh = done ++ seen := by
    refine List.append_cancel_right (history.symm.trans ?_)
    rw [← hdone, hseen, List.append_assoc]
  have hears := hears_of_served node sound natural decoded nonneg hseen
    (served_append.mp (hfresh ▸ served)).2
  have hchoice := Watcher.choice_candidate hears.sound hears.natural
  generalize hcandidate : Watcher.candidate _ _ = candidate at hchoice
  cases hchoice with
  | idle due room =>
      rw [hears.counter] at due
      have hbeyond := Counter.due_hear_eq_none_iff.mp due
      obtain ⟨hcounter, hone, hidles⟩ := idles_of_hears hears (attempt_of_none hcandidate) history
      exact ⟨hcounter.trans (Counter.tick_of_beyond hbeyond).symm, hone,
        fun hle => absurd hbeyond (Int.not_lt.mpr hle), fun _ => hidles⟩
  | overflow atEnd current =>
      have hbeyond := Counter.due_hear_eq_none_iff.mp (hears.counter ▸ atEnd.due_eq_none)
      obtain ⟨hcounter, hone, hidles⟩ := idles_of_hears hears (attempt_of_error hcandidate) history
      exact ⟨hcounter.trans (Counter.tick_of_beyond hbeyond).symm, hone,
        fun hle => absurd hbeyond (Int.not_lt.mpr hle), fun _ => hidles⟩
  | @next number n due decoded spelled =>
      rw [hears.counter] at due
      obtain ⟨hfirst, hle⟩ := Counter.due_hear_eq_some due
      obtain ⟨hcounter, hone, hprocesses⟩ :=
        processes_of_hears hears hcandidate decoded history served
      rw [hfirst]
      refine ⟨hcounter.trans ?_, hone, fun _ => hprocesses,
        fun hgt => absurd hgt (Int.not_lt.mpr hle)⟩
      rw [Counter.tick_of_due (hfirst ▸ hle), hfirst]

end Shift

end BlockWatch
