import BlockWatch.Proofs.Session.Run
import BlockWatch.Proofs.Shift.Soundness
import Mathlib

/-!
# What comes of a block that was not processed

Normative source: SPEC_FULL.md, section 4.3, step 4 of `processNextBlock`:

    otherwise retry the same block (supports resuming a block left unresolved by a prior failed
    attempt).

A block on which an attempt failed is not written down anywhere: the next attempt chooses anew, from
the current block, the newest head and the marks in the cache.  A watcher with a current block
chooses the same number again, whatever heads it has seen meanwhile.  A new watcher chooses the head
that is the newest by then, so the block is left behind when the head has moved on.  `retried_iff`
gives this condition for every run, and `failed_block_left_behind` is a run in which it fails.

To say what an attempt started from, the attempts of a run are taken from its events in their order;
each began with what the ones before it had processed (`Recorded`).
-/

set_option autoImplicit false

namespace BlockWatch

variable {σ υ : Type}

/-! ## Attempts in their order -/

/-- An attempt: the moment at which it began, and what it came to. -/
structure Attempt where
  before : Snapshot
  result : Except Failure (Option String)

/-- The block that an attempt processed. -/
def Attempt.number? (attempt : Attempt) : Option String :=
  match attempt.result with
  | .ok processed => processed
  | .error _ => none

/-- The block that an attempt chose, and what it came to. -/
def Attempt.course (attempt : Attempt) :
    Except Failure (Option String) × Except Failure (Option String) :=
  (attempt.before.watcher.candidate attempt.before.cache, attempt.result)

/-- The attempt that an event tells of. -/
def Event.attempt? : Event → Option Attempt
  | .attempted before _ result => some ⟨before, result⟩
  | _ => none

/-- The attempts among events. -/
def attempts (events : List Event) : List Attempt := events.filterMap Event.attempt?

/-- The block that the last one of some attempts processed, of those that processed any. -/
def lastProcessed (row : List Attempt) : Option String := (row.filterMap Attempt.number?).getLast?

theorem lastProcessed_append (earlier later : List Attempt) :
    lastProcessed (earlier ++ later) = (lastProcessed later).or (lastProcessed earlier) := by
  rw [lastProcessed, List.filterMap_append, List.getLast?_append]
  rfl

theorem lastProcessed_of_none {row : List Attempt} (h : ∀ attempt ∈ row, attempt.number? = none) :
    lastProcessed row = none := by
  rw [lastProcessed, List.filterMap_eq_nil_iff.mpr h, List.getLast?_nil]

theorem attempts_append (early late : List Event) :
    attempts (early ++ late) = attempts early ++ attempts late := List.filterMap_append

theorem attempts_of_underWay {events : List Event} (h : ∀ event ∈ events, event.IsUnderWay) :
    attempts events = [] := by
  rw [attempts, List.filterMap_eq_nil_iff]
  intro event hevent
  cases event with
  | attempted before after result => exact (h _ hevent).elim
  | _ => rfl

theorem attempts_of_tidings {events : List Event} (h : ∀ event ∈ events, event.IsTiding) :
    attempts events = [] :=
  Event.filterMap_of_tidings (fun _ _ => rfl) (fun _ => rfl) (fun _ => rfl) h

/-! ## The attempts of a stride -/

namespace Shift

/-- A stride that is no attempt adds none and leaves the current block; an attempt adds itself, and
what it processed is what it had chosen and becomes the current block. -/
inductive Attempting (shift after : Shift σ υ) : Prop
  | none (history : attempts after.history = attempts shift.history)
      (current : after.watcher.current = shift.watcher.current)
  | one (attempt : Attempt) (before : attempt.before = shift.snapshot)
      (history : attempts after.history = attempt :: attempts shift.history)
      (current : after.watcher.current = attempt.number?.or shift.watcher.current)
      (chosen : ∀ number, attempt.number? = some number →
        shift.watcher.candidate shift.cache = .ok (some number))

theorem attempts_of_moves {node : Node σ υ} {start now : Shift σ υ}
    (moves : Moves node start now) :
    attempts now.history = attempts start.history ∧
      now.watcher.current = start.watcher.current := by
  obtain ⟨events, _, account⟩ := Account.of_moves moves
  refine ⟨?_, account.leftAlone.current⟩
  rw [account.history, attempts_append, attempts_of_underWay account.underWay, List.nil_append]

theorem attempts_advance (node : Node σ υ) (pace : Pace) (shift : Shift σ υ) :
    attempts (shift.advance node pace).2.history = attempts shift.history := by
  obtain ⟨events, hending⟩ := ending_advance node pace shift
  generalize (shift.advance node pace).1 = result at hending
  generalize (shift.advance node pace).2 = after at hending ⊢
  cases hending with
  | undecided candidate => rfl
  | idle candidate => rfl
  | withheld candidate moves history unavailable => exact (attempts_of_moves moves).1
  | setback candidate moves history first => exact (attempts_of_moves moves).1
  | processed candidate moves history first stored taken marked => exact (attempts_of_moves moves).1

theorem attempts_attempt (node : Node σ υ) (pace : Pace) (shift : Shift σ υ) :
    attempts (shift.attempt node pace).2.history =
      ⟨shift.snapshot, (shift.attempt node pace).1⟩ :: attempts shift.history := by
  rw [← attempts_advance node pace shift]
  rfl

theorem attempting_attempt (node : Node σ υ) (pace : Pace) (shift : Shift σ υ) :
    Attempting shift (shift.attempt node pace).2 := by
  have hone := attempts_attempt node pace shift
  obtain ⟨events, result, after, hending, -, hattempt⟩ := ending_attempt node pace shift
  rw [hattempt] at hone ⊢
  cases hending with
  | undecided candidate => exact .one _ rfl hone rfl (by simp [Attempt.number?])
  | idle candidate => exact .one _ rfl hone rfl (by simp [Attempt.number?])
  | withheld candidate moves history unavailable =>
      exact .one _ rfl hone (attempts_of_moves moves).2 (by simp [Attempt.number?])
  | setback candidate moves history first =>
      exact .one _ rfl hone (attempts_of_moves moves).2 (by simp [Attempt.number?])
  | @processed number _ worked block cache candidate moves history first stored taken marked =>
      refine .one _ rfl hone rfl ?_
      intro other hother
      cases hother
      exact candidate

theorem Stride.attempting {node : Node σ υ} {pace : Pace} {shift after : Shift σ υ}
    (stride : Stride node pace shift after) : Attempting shift after := by
  cases stride with
  | move move =>
      obtain ⟨hhistory, hcurrent⟩ := attempts_of_moves (.single move)
      exact .none hhistory hcurrent
  | observe =>
      obtain ⟨listened, records, answer, hmoves, -, htold⟩ := observeHead_told node shift
      obtain ⟨hhistory, hcurrent⟩ := attempts_of_moves hmoves
      rw [htold]
      exact .none hhistory ((listened.watcher.hear_current answer).trans hcurrent)
  | attempt => exact attempting_attempt node pace shift
  | settle =>
      obtain ⟨told, hsettle, htold⟩ := settle_told shift
      rw [hsettle]
      refine .none ?_ rfl
      show attempts (told ++ shift.history) = _
      rw [attempts_append, attempts_of_tidings htold, List.nil_append]
  | write records =>
      have hnone : attempts (records.map Event.recorded).reverse = [] :=
        attempts_of_tidings Event.isTiding_of_mem_records
      rw [write_eq]
      refine .none ?_ rfl
      show attempts ((records.map Event.recorded).reverse ++ shift.history) = _
      rw [attempts_append, hnone, List.nil_append]
  | loop running stopped loops handle => exact .none rfl rfl

end Shift

/-! ## The invariant -/

/-- An attempt in its place after others: it began with the block that the last one before had
processed, was sound then, and what it processed is what it had chosen. -/
structure Attempt.InPlace (attempt : Attempt) (earlier : List Attempt) : Prop where
  current : attempt.before.watcher.current = lastProcessed earlier
  sound : attempt.before.watcher.Sound attempt.before.cache
  chosen : ∀ number, attempt.number? = some number →
    attempt.before.watcher.candidate attempt.before.cache = .ok (some number)

/-- All attempts are in their places, and the watcher has the last block that was processed. -/
structure Recorded (row : List Attempt) (watcher : Watcher) : Prop where
  current : watcher.current = lastProcessed row
  inPlace : ∀ (place : Nat) (attempt : Attempt), row[place]? = some attempt →
    attempt.InPlace (row.take place)

namespace Recorded

theorem concat {row : List Attempt} {watcher after : Watcher} {attempt : Attempt}
    (recorded : Recorded row watcher) (inPlace : attempt.InPlace row)
    (current : after.current = attempt.number?.or watcher.current) :
    Recorded (row ++ [attempt]) after where
  current := by
    rw [current, recorded.current, lastProcessed_append]
    congr 1
    rw [lastProcessed, List.filterMap_cons, List.filterMap_nil]
    cases attempt.number? <;> rfl
  inPlace place other h := by
    have hbound : place < (row ++ [attempt]).length := (List.getElem?_eq_some_iff.mp h).1
    rw [List.length_append, List.length_singleton] at hbound
    rcases Nat.lt_or_ge place row.length with hplace | hplace
    · rw [List.getElem?_append_left hplace] at h
      rw [List.take_append_of_le_length (Nat.le_of_lt hplace)]
      exact recorded.inPlace place other h
    · have hend : place = row.length := by omega
      rw [hend, List.getElem?_concat_length] at h
      cases h
      rw [hend, List.take_left]
      exact inPlace

theorem of_append {earlier later : List Attempt} {attempt : Attempt} {watcher : Watcher}
    (recorded : Recorded (earlier ++ attempt :: later) watcher) : attempt.InPlace earlier := by
  have hfound : (earlier ++ attempt :: later)[earlier.length]? = some attempt := by simp
  simpa using recorded.inPlace earlier.length attempt hfound

/-- Run lemma: preserved by strides. -/
theorem strides {node : Node σ υ} {pace : Pace} {events : List Event} {start last : Shift σ υ}
    (strides : Shift.Strides node pace start last) (sound : start.watcher.Sound start.cache)
    (recorded : Recorded (attempts (events ++ start.history.reverse)) start.watcher) :
    Recorded (attempts (events ++ last.history.reverse)) last.watcher := by
  have hreverse : ∀ history : List Event,
      attempts (events ++ history.reverse) = attempts events ++ (attempts history).reverse := by
    intro history
    rw [attempts_append, attempts, attempts, List.filterMap_reverse, attempts]
  simp only [hreverse] at recorded ⊢
  induction strides with
  | refl => exact recorded
  | @tail middle after early stride ih =>
      cases stride.attempting with
      | none history current => exact ⟨history ▸ current ▸ ih.current, history ▸ ih.inPlace⟩
      | one attempt before history current chosen =>
          have hinPlace :
              attempt.InPlace (attempts events ++ (attempts middle.history).reverse) := by
            refine ⟨?_, ?_, ?_⟩
            · rw [before]
              exact ih.current
            · rw [before]
              exact Shift.Strides.watcherSound early sound
            · rw [before]
              exact chosen
          rw [history, List.reverse_cons, ← List.append_assoc]
          exact ih.concat hinPlace current

end Recorded

/-! ## The choice of an attempt -/

/-- An attempt of a watcher with a current block chooses the number after it, and one of a new
watcher the number of the newest head. -/
theorem Attempt.InPlace.number_chosen {attempt : Attempt} {earlier : List Attempt}
    (inPlace : attempt.InPlace earlier) {number : String}
    (chosen : attempt.before.watcher.candidate attempt.before.cache = .ok (some number)) :
    ∃ head bound n, attempt.before.watcher.latest = some head ∧
      Quantity.decode head = .ok bound ∧ Quantity.decode number = .ok n ∧
      match lastProcessed earlier with
      | none => n = bound
      | some current => ∃ m, Quantity.decode current = .ok m ∧ n = m + 1 := by
  cases hlast : lastProcessed earlier with
  | none =>
      have hnew : attempt.before.watcher.current = none := inPlace.current.trans hlast
      obtain ⟨head, bound, hlatest, hbound, hnumber⟩ := Watcher.candidate_of_new hnew chosen
      exact ⟨head, bound, bound, hlatest, hbound, hnumber, rfl⟩
  | some current =>
      have hcurrent : attempt.before.watcher.current = some current := inPlace.current.trans hlast
      obtain ⟨-, ⟨m, hm⟩, hprocessed⟩ := inPlace.sound.current current hcurrent
      obtain ⟨head, bound, hlatest, hbound, hnumber, -⟩ :=
        Watcher.candidate_of_processed hcurrent hm hprocessed chosen
      exact ⟨head, bound, m + 1, hlatest, hbound, hnumber, m, hm, rfl⟩

namespace Session

/-- In every run the attempts of a watcher are in place. -/
theorem attempts_inPlace (settings : Settings) (node : Node σ υ) (state : σ) (watchers : Nat)
    (steps : List (Step υ)) (place : Nat) :
    ∃ watcher, Recorded
      (attempts (eventsAt place ((new settings state watchers).play node steps).1)) watcher := by
  cases hwatcher : (new settings state watchers).watchers[place]? with
  | none =>
      rw [eventsAt_of_absent node steps _ hwatcher]
      exact ⟨{}, rfl, by simp [attempts]⟩
  | some watcher =>
      have hnew : watcher = {} := List.eq_of_mem_replicate (List.mem_of_getElem? hwatcher)
      have hbegin : watcher.Sound (new settings state watchers).cache ∧
          Recorded (attempts []) watcher := by
        rw [hnew]
        exact ⟨Watcher.sound_new _, rfl, by simp [attempts]⟩
      obtain ⟨last, hlast⟩ := play_invariant node place (fun _ => True)
        (fun events watcher cache => watcher.Sound cache ∧ Recorded (attempts events) watcher)
        (fun h hgrows => ⟨h.1.grow hgrows, h.2⟩)
        (fun h hhistory _ hstrides => ⟨hstrides.watcherSound h.1,
          Recorded.strides hstrides h.1 (by simpa [hhistory] using h.2)⟩)
        steps (new settings state watchers) watcher [] hwatcher (by simp) hbegin
      exact ⟨last, hlast.2⟩

/-- After an attempt on a block that failed, the next block that the watcher processes has the same
number exactly when the watcher had a current block, or the head that it has seen by then has that
number.  A new watcher processes that head. -/
theorem retried_iff (settings : Settings) (node : Node σ υ) (state : σ) (watchers : Nat)
    (steps : List (Step υ)) (place : Nat) {earlier between later : List Attempt}
    {failed next : Attempt} {pending processed : String} {failure : Failure}
    (hrun : attempts (eventsAt place ((new settings state watchers).play node steps).1) =
      earlier ++ failed :: (between ++ next :: later))
    (hchosen : failed.before.watcher.candidate failed.before.cache = .ok (some pending))
    (hfailed : failed.result = .error failure)
    (hbetween : ∀ attempt ∈ between, attempt.number? = none)
    (hnext : next.result = .ok (some processed)) :
    ∃ head bound n m, next.before.watcher.latest = some head ∧
      Quantity.decode head = .ok bound ∧ Quantity.decode pending = .ok n ∧
      Quantity.decode processed = .ok m ∧
      (m = n ↔ failed.before.watcher.current ≠ none ∨ bound = n) ∧
      (failed.before.watcher.current = none → m = bound) := by
  obtain ⟨watcher, hrecorded⟩ := attempts_inPlace settings node state watchers steps place
  rw [hrun] at hrecorded
  have hfirst : failed.InPlace earlier := hrecorded.of_append
  have hsecond : next.InPlace (earlier ++ failed :: between) := by
    rw [← List.cons_append, ← List.append_assoc] at hrecorded
    exact hrecorded.of_append
  -- nothing was processed between the two, so both start from the same block
  have hsame : lastProcessed (earlier ++ failed :: between) = lastProcessed earlier := by
    have hnone : ∀ attempt ∈ failed :: between, attempt.number? = none := by
      intro attempt hattempt
      rcases List.mem_cons.mp hattempt with rfl | hattempt
      · simp only [Attempt.number?, hfailed]
      · exact hbetween attempt hattempt
    rw [lastProcessed_append, lastProcessed_of_none hnone, Option.none_or]
  have hprocessed : next.before.watcher.candidate next.before.cache = .ok (some processed) :=
    hsecond.chosen processed (by simp only [Attempt.number?, hnext])
  obtain ⟨_, _, n, -, -, hn, hfrom⟩ := hfirst.number_chosen hchosen
  obtain ⟨head, bound, m, hlatest, hbound, hm, hto⟩ := hsecond.number_chosen hprocessed
  rw [hsame] at hto
  refine ⟨head, bound, n, m, hlatest, hbound, hn, hm, ?_⟩
  rw [hfirst.current]
  cases hlast : lastProcessed earlier with
  | none =>
      rw [hlast] at hto
      dsimp only at hto
      simp [hto]
  | some current =>
      rw [hlast] at hfrom hto
      obtain ⟨k, hk, rfl⟩ := hfrom
      obtain ⟨l, hl, rfl⟩ := hto
      have hequal : l = k := Except.ok.inj (hl.symm.trans hk)
      simp [hequal]

/-- A node that fails for the block that it announces. -/
def outage : Script where
  head := some "0x5"
  blocks := ⟨[("0x5", ⟨"0xb", []⟩), ("0x6", ⟨"0xc", []⟩), ("0x7", ⟨"0xd", []⟩)]⟩
  failingBlocks := ["0x5"]

/-- The node announces a head, and fails for some blocks; then the watcher looks and attempts. -/
def announced (head : String) (failing : List String) : List (Step Script.Update) :=
  [.act 0 (.node { head := some (some head), failingBlocks := some failing }),
    .work 0 .observe [], .work 0 .attempt []]

/-- The head moves on twice, and in between the watcher fails at its second block. -/
theorem retried_iff_second_block :
    ∃ (first failed next : Attempt) (head : String) (bound n m : Int),
      attempts (eventsAt 0 ((new {} outage 1).play Script.node
        (announced "0x5" [] ++ announced "0x6" ["0x6"] ++ announced "0x7" [])).1) =
          [first] ++ failed :: ([] ++ next :: []) ∧
      next.before.watcher.latest = some head ∧ Quantity.decode head = .ok bound ∧
      Quantity.decode "0x6" = .ok n ∧ Quantity.decode "0x6" = .ok m ∧
      (m = n ↔ failed.before.watcher.current ≠ none ∨ bound = n) ∧
      (failed.before.watcher.current = none → m = bound) := by
  have hcourse : (attempts (eventsAt 0 ((new {} outage 1).play Script.node
      (announced "0x5" [] ++ announced "0x6" ["0x6"] ++ announced "0x7" [])).1)).map
        Attempt.course =
      [(.ok (some "0x5"), .ok (some "0x5")),
       (.ok (some "0x6"), .error (.rpc "eth_getBlockByNumber" ⟨"mock failure for 0x6", []⟩)),
       (.ok (some "0x6"), .ok (some "0x6"))] := by cbv
  obtain ⟨first, _, hrun, -, hcourse⟩ := List.map_eq_cons_iff.mp hcourse
  obtain ⟨failed, _, rfl, hfailed, hcourse⟩ := List.map_eq_cons_iff.mp hcourse
  obtain ⟨next, _, rfl, hnext, hnone⟩ := List.map_eq_cons_iff.mp hcourse
  obtain rfl := List.map_eq_nil_iff.mp hnone
  obtain ⟨hchosen, hresult⟩ := Prod.mk.inj hfailed
  obtain ⟨-, hprocessed⟩ := Prod.mk.inj hnext
  have hsplit : attempts (eventsAt 0 ((new {} outage 1).play Script.node
      (announced "0x5" [] ++ announced "0x6" ["0x6"] ++ announced "0x7" [])).1) =
        [first] ++ failed :: ([] ++ next :: []) := hrun
  obtain ⟨head, bound, n, m, hall⟩ := retried_iff {} Script.node outage 1 _ 0 hsplit hchosen
    hresult (by simp) hprocessed
  exact ⟨first, failed, next, head, bound, n, m, hsplit, hall⟩

/-- A new watcher fails at the announced block and then processes another one: the block on which it
had started is never processed. -/
theorem failed_block_left_behind :
    (attempts (eventsAt 0 ((new {} outage 1).play Script.node
      (announced "0x5" ["0x5"] ++ announced "0x7" [])).1)).map Attempt.course =
        [(.ok (some "0x5"), .error (.rpc "eth_getBlockByNumber" ⟨"mock failure for 0x5", []⟩)),
         (.ok (some "0x7"), .ok (some "0x7"))] ∧
      Quantity.decode "0x5" = .ok 5 ∧ Quantity.decode "0x7" = .ok 7 :=
  ⟨by cbv, rfl, rfl⟩

end Session

end BlockWatch
