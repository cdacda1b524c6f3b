import BlockWatch.Proofs.Counter
import BlockWatch.Proofs.Session.Soundness
import BlockWatch.Proofs.Shift.Inquiry

/-!
# Watchers count

Normative source: SPEC_FULL.md, section 4.3, step 4 of `processNextBlock`:

    Candidate next number defaults to `currentBlock` itself; if the Cache reports that block as
    already processed, advance the candidate to `currentBlock_int + offset` (encoded back to hex)

`Counter` of `Proofs.Counter` is the specification: a machine on integers that remembers a current
number and a head, without texts, marks or a cache.  `counts_throughout` shows that at every moment
of every run a watcher is such a counter (`Shift.Counts`), unless it has heard of a negative head:
an attempt works on the number that is due, fails where the number after the current one has more
than 64 bits, and asks for nothing where none is due.  Neither the spelling of a head nor what is in
the cache makes a difference to it.

`Counting` is the invariant.  It is carried through a run by `play_new`, since strides preserve it
and a cache that grows does not break it.
-/

set_option autoImplicit false

namespace BlockWatch

variable {σ υ : Type}

namespace Shift

/-! ## Attempts that count -/

/-- An attempt works on a block with the number `n`: it processes that block and counts on, or fails
and counts nothing; and it asks for the block, unless the cache has it, for transactions of the
block, and for nothing else. -/
structure WorksOn (node : Node σ υ) (pace : Pace) (shift : Shift σ υ) (number : String) (n : Int) :
    Prop where
  result :
    ((shift.attempt node pace).1 = .ok (some number) ∧
      (shift.attempt node pace).2.watcher.current = some number ∧
      (shift.attempt node pace).2.watcher.counter =
        { shift.watcher.counter with current := some n }) ∨
    ∃ failure, (shift.attempt node pace).1 = .error failure ∧
      (shift.attempt node pace).2.watcher.counter = shift.watcher.counter
  asked : ∃ events,
    (shift.attempt node pace).2.history =
      .attempted shift.snapshot (shift.attempt node pace).2.snapshot (shift.attempt node pace).1 ::
        (events ++ shift.history) ∧
    Inquiry shift (shift.attempt node pace).2 number events

/-- What an attempt comes to is read off the counter. -/
structure Counts (node : Node σ υ) (pace : Pace) (shift : Shift σ υ) : Prop where
  /-- the counter has a number for all that the watcher remembers -/
  current : shift.watcher.counter.current = none ↔ shift.watcher.current = none
  head : shift.watcher.counter.head = none ↔ shift.watcher.latest = none
  /-- where no number is due nothing is asked for and nothing changes -/
  idle : shift.watcher.counter.due = none → ¬ shift.watcher.AtEnd →
    shift.attempt node pace =
      (.ok none, shift.observe (.attempted shift.snapshot shift.snapshot (.ok none)))
  /-- nor is anything due at the end, and that is a failure -/
  overflow : shift.watcher.AtEnd → shift.watcher.counter.due = none ∧
    ∃ current, shift.watcher.current = some current ∧
      let failure := Failure.consistency ("block number overflow after " ++ current)
      shift.attempt node pace =
        (.error failure, shift.observe (.attempted shift.snapshot shift.snapshot (.error failure)))
  /-- a number that is due is worked on, in canonical spelling if there is a current block -/
  works : ∀ n, shift.watcher.counter.due = some n →
    ∃ number, Quantity.decode number = .ok n ∧
      (shift.watcher.current ≠ none → number = Quantity.encode n) ∧
      shift.WorksOn node pace number n

theorem attempt_of_error {node : Node σ υ} {pace : Pace} {shift : Shift σ υ} {failure : Failure}
    (h : shift.watcher.candidate shift.cache = .error failure) :
    shift.attempt node pace =
      (.error failure,
        shift.observe (.attempted shift.snapshot shift.snapshot (.error failure))) := by
  simp only [attempt, advance, h]

theorem attempt_of_none {node : Node σ υ} {pace : Pace} {shift : Shift σ υ}
    (h : shift.watcher.candidate shift.cache = .ok none) :
    shift.attempt node pace =
      (.ok none, shift.observe (.attempted shift.snapshot shift.snapshot (.ok none))) := by
  simp only [attempt, advance, h]

theorem counter_congr {watcher other : Watcher} (current : other.current = watcher.current)
    (latest : other.latest = watcher.latest) : other.counter = watcher.counter := by
  rw [Watcher.counter, Watcher.counter, current, latest]

theorem Moves.counter {node : Node σ υ} {start now : Shift σ υ} (moves : Moves node start now) :
    now.watcher.counter = start.watcher.counter := by
  obtain ⟨_, _, account⟩ := Account.of_moves moves
  exact counter_congr account.leftAlone.current account.leftAlone.latest

theorem worksOn_of_candidate (node : Node σ υ) (pace : Pace) {shift : Shift σ υ} {number : String}
    {n : Int} (candidate : shift.watcher.candidate shift.cache = .ok (some number))
    (decoded : Quantity.decode number = .ok n) : shift.WorksOn node pace number n := by
  obtain ⟨_, result, after, hending, hadvance, hattempt⟩ := ending_attempt node pace shift
  constructor
  · rw [hattempt]
    cases hending with
    | undecided other => rw [candidate] at other; cases other
    | idle other => rw [candidate] at other; cases other
    | withheld _ moves history unavailable => exact Or.inr ⟨_, rfl, moves.counter⟩
    | setback _ moves history first => exact Or.inr ⟨_, rfl, moves.counter⟩
    | @processed chosen _ worked block cache other moves history first stored taken marked =>
        have hchosen : chosen = number :=
          Option.some.inj (Except.ok.inj (other.symm.trans candidate))
        rw [hchosen]
        refine Or.inl ⟨rfl, rfl, ?_⟩
        have hhead : worked.watcher.counter.head = shift.watcher.counter.head := by
          rw [moves.counter]
        show Counter.mk ((some number).bind Quantity.value?) worked.watcher.counter.head = _
        rw [hhead, Option.bind_some, Quantity.value?_of_decode decoded]
  · obtain ⟨events, hevents, hinquiry⟩ := inquiry_advance node pace candidate hadvance
    rw [hattempt]
    refine ⟨events, ?_, ⟨hinquiry.asked, hinquiry.answered, hinquiry.within⟩⟩
    rw [← hevents]
    rfl

theorem counts (node : Node σ υ) (pace : Pace) {shift : Shift σ υ}
    (sound : shift.watcher.Sound shift.cache) (natural : shift.watcher.Natural) :
    shift.Counts node pace := by
  have hchoice := Watcher.choice_candidate sound natural
  refine ⟨sound.counter_current_eq_none_iff, sound.counter_head_eq_none_iff, ?_, ?_, ?_⟩
  · intro hdue hroom
    generalize hcandidate : shift.watcher.candidate shift.cache = candidate at hchoice
    cases hchoice with
    | idle due room => exact attempt_of_none hcandidate
    | overflow atEnd current => exact absurd atEnd hroom
    | next due decoded spelled => rw [hdue] at due; cases due
  · intro hend
    generalize hcandidate : shift.watcher.candidate shift.cache = candidate at hchoice
    cases hchoice with
    | idle due room => exact absurd hend room
    | overflow atEnd current =>
        exact ⟨hend.due_eq_none, _, current, attempt_of_error hcandidate⟩
    | next due decoded spelled => rw [hend.due_eq_none] at due; cases due
  · intro n hdue
    generalize hcandidate : shift.watcher.candidate shift.cache = candidate at hchoice
    cases hchoice with
    | idle due room => rw [hdue] at due; cases due
    | overflow atEnd current => rw [atEnd.due_eq_none] at hdue; cases hdue
    | @next number m due decoded spelled =>
        have hsame : m = n := Option.some.inj (due.symm.trans hdue)
        rw [hsame] at decoded spelled
        refine ⟨number, decoded, ?_, worksOn_of_candidate node pace hcandidate decoded⟩
        intro hcurrent
        exact spelled.resolve_right fun hnew => hcurrent hnew.1

end Shift

/-! ## Runs -/

/-- What is kept up for a watcher: it is sound, and natural unless it heard of a negative head. -/
structure Counting (events : List Event) (watcher : Watcher) (cache : Cache) : Prop where
  sound : watcher.Sound cache
  natural : HeadsNatural events → watcher.Natural

/-- Run lemma: preserved by strides. -/
theorem Counting.strides {node : Node σ υ} {pace : Pace} {events : List Event}
    {start last : Shift σ υ} (counting : Counting events start.watcher start.cache)
    (strides : Shift.Strides node pace start last) :
    Counting (events ++ last.history.reverse) last.watcher last.cache where
  sound := strides.watcherSound counting.sound
  natural heads := by
    obtain ⟨hevents, hhistory⟩ := headsNatural_append.mp heads
    exact strides.natural counting.sound (counting.natural hevents)
      (headsNatural_reverse.mp hhistory)

namespace Session

/-- Run lemma, also for every moment of the work of a watcher. -/
theorem counting_throughout (settings : Settings) (node : Node σ υ) (state : σ) (watchers : Nat)
    (steps : List (Step υ)) (place : Nat) {shift : Shift σ υ}
    (hshift : ((new settings state watchers).play node steps).2.Amid node place shift) :
    Counting (eventsAt place ((new settings state watchers).play node steps).1 ++
      shift.history.reverse) shift.watcher shift.cache := by
  obtain ⟨watcher, agenda, hwatcher, hstrides⟩ := hshift
  have hcounting : Counting (eventsAt place ((new settings state watchers).play node steps).1)
      watcher ((new settings state watchers).play node steps).2.cache :=
    play_new node place (fun _ => True) Counting
      (fun h hgrows => ⟨h.sound.grow hgrows, h.natural⟩) (fun h _ _ hstrides => h.strides hstrides)
      settings state watchers steps (by simp) ⟨Watcher.sound_new _, fun _ => Watcher.natural_new⟩
      hwatcher
  exact hcounting.strides hstrides

/-- At every moment of every run of watchers on one cache, whatever the node answers and whatever is
done meanwhile, a watcher that has heard of no negative head is a counter. -/
theorem counts_throughout (settings : Settings) (node : Node σ υ) (state : σ) (watchers : Nat)
    (steps : List (Step υ)) (place : Nat) {shift : Shift σ υ}
    (hshift : ((new settings state watchers).play node steps).2.Amid node place shift)
    (hheads : HeadsNatural (eventsAt place ((new settings state watchers).play node steps).1 ++
      shift.history.reverse)) (pace : Pace) :
    shift.Counts node pace := by
  have hcounting := counting_throughout settings node state watchers steps place hshift
  exact Shift.counts node pace hcounting.sound (hcounting.natural hheads)

/-- A node that announces heads in spellings that are not canonical. -/
def padded : Script where
  head := some "0x07"
  queue := [some "0x05"]
  blocks := ⟨[("0x05", ⟨"0xb", []⟩), ("0x6", ⟨"0xc", ["0x1"]⟩)]⟩

/-- A watcher has processed the first head and has seen the second one; another watcher on the same
cache has done nothing. -/
def behind : List (Step Script.Update) :=
  [.work 0 .observe [], .work 0 .attempt [], .work 0 .observe []]

theorem counts_throughout_behind :
    ∃ shift : Shift Script Script.Update,
      ((new {} padded 2).play Script.node behind).2.Amid Script.node 0 shift ∧
        HeadsNatural (eventsAt 0 ((new {} padded 2).play Script.node behind).1 ++
          shift.history.reverse) ∧
        shift.watcher.counter.due = some 6 ∧ shift.Counts Script.node ({} : Settings).pace := by
  have hpresent : ((new {} padded 2).play Script.node behind).2.watchers[0]? =
      some { current := some "0x05", latest := some "0x07" } := by cbv
  have hamid : ((new {} padded 2).play Script.node behind).2.Amid Script.node 0 _ :=
    ⟨_, ([] : List (Appointment Script.Update)), hpresent, .refl⟩
  have hheard : heardHeads (eventsAt 0 ((new {} padded 2).play Script.node behind).1 ++
      ([] : List Event).reverse) = [.ok "0x05", .ok "0x07"] := by cbv
  have hheads : HeadsNatural (eventsAt 0 ((new {} padded 2).play Script.node behind).1 ++
      ([] : List Event).reverse) := by
    intro head n hhead hn
    rw [hheard] at hhead
    have hspelled : head = "0x05" ∨ head = "0x07" := by simpa using hhead
    rcases hspelled with rfl | rfl
    · have hfive : (5 : Int) = n := Except.ok.inj hn
      omega
    · have hseven : (7 : Int) = n := Except.ok.inj hn
      omega
  exact ⟨_, hamid, hheads, rfl,
    counts_throughout {} Script.node padded 2 behind 0 hamid hheads ({} : Settings).pace⟩

end Session

end BlockWatch
