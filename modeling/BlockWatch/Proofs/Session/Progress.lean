import BlockWatch.Proofs.Candidate
import BlockWatch.Proofs.Session.Run

/-!
# Progress

Normative source: SPEC_FULL.md, section 5:

    blocks are processed strictly in increasing order, one fully resolved (or abandoned) before the
    next begins

`processed_in_order` makes this exact: over every run, the blocks that a watcher processes have
consecutive numbers, beginning with the head that it had seen when it processed the first one, none
is beyond the newest head of its moment, and the number that an attempt returns is the current block
of the watcher after it.

The invariant `Advancing` is that the current block of a watcher is the last one it processed, and
is marked in the cache.  Of the strides only one that processes a block changes the current block,
and marks stay, so the cache can be shared with other watchers.
-/

set_option autoImplicit false

namespace BlockWatch

variable {σ υ : Type}

/-! ## Order -/

/-- The attempts among events that processed a block. -/
def successes (events : List Event) : List Success := events.filterMap Event.success?

/-- An attempt that processed a block is in its place in a row that begins with the number `first`:
its block has the number that is due and is not beyond the head, the first block is the head, and
the block is the current one when the attempt ends. -/
structure Success.Follows (first : Int) (place : Nat) (success : Success) : Prop where
  number : Quantity.decode success.number = .ok (first + place)
  head : ∃ head bound, success.before.watcher.latest = some head ∧
    Quantity.decode head = .ok bound ∧ first + place ≤ bound ∧ (place = 0 → bound = first)
  current : success.after.watcher.current = some success.number

/-- A row of attempts has consecutive numbers from `first` on. -/
def InOrder (first : Int) (row : List Success) : Prop :=
  ∀ (place : Nat) (success : Success), row[place]? = some success → success.Follows first place

theorem InOrder.concat {first : Int} {row : List Success} {last : Success}
    (inOrder : InOrder first row) (follows : last.Follows first row.length) :
    InOrder first (row ++ [last]) := by
  intro place success h
  have hbound : place < (row ++ [last]).length := (List.getElem?_eq_some_iff.mp h).1
  rw [List.length_append, List.length_singleton] at hbound
  rcases Nat.lt_or_ge place row.length with hplace | hplace
  · rw [List.getElem?_append_left hplace] at h
    exact inOrder place success h
  · have hend : place = row.length := by omega
    rw [hend, List.getElem?_concat_length] at h
    cases h
    exact hend ▸ follows

/-! ## The invariant -/

/-- What is kept up for a watcher: the blocks it processed are in order, the last of them is its
current one, and the cache has that as processed. -/
structure Advancing (events : List Event) (watcher : Watcher) (cache : Cache) : Prop where
  inOrder : ∃ first, InOrder first (successes events)
  current : watcher.current = (successes events).getLast?.map (·.number)
  processed : ∀ number, watcher.current = some number → cache.isProcessed number = .ok true

theorem successes_append (early late : List Event) :
    successes (early ++ late) = successes early ++ successes late := List.filterMap_append

theorem successes_quiet (events : List Event) {before after : Shift σ υ}
    (quiet : Shift.Quiet before after) :
    successes (events ++ after.history.reverse) =
      successes (events ++ before.history.reverse) := by
  obtain ⟨fresh, hfresh, hquiet⟩ := quiet.history
  have hnone : successes fresh.reverse = [] :=
    List.filterMap_eq_nil_iff.mpr fun event hevent => hquiet event (List.mem_reverse.mp hevent)
  rw [hfresh, List.reverse_append, ← List.append_assoc, successes_append, hnone, List.append_nil]

theorem successes_completes (events : List Event) {shift worked after : Shift σ υ} {number : String}
    (completes : Shift.Completes shift worked after number) :
    successes (events ++ after.history.reverse) =
      successes (events ++ shift.history.reverse) ++
        [⟨shift.snapshot, after.snapshot, number⟩] := by
  rw [completes.history, List.reverse_cons, ← List.append_assoc, successes_append,
    successes_quiet events completes.still.quiet]
  rfl

namespace Advancing

/-- Monotone in the cache. -/
theorem grow {events : List Event} {watcher : Watcher} {before after : Cache}
    (advancing : Advancing events watcher before) (grows : Cache.Grows before after) :
    Advancing events watcher after where
  inOrder := advancing.inOrder
  current := advancing.current
  processed number h := grows.isProcessed (advancing.processed number h)

/-- Preserved by quiet work. -/
theorem quiet {events : List Event} {before after : Shift σ υ}
    (advancing : Advancing (events ++ before.history.reverse) before.watcher before.cache)
    (quiet : Shift.Quiet before after) :
    Advancing (events ++ after.history.reverse) after.watcher after.cache := by
  have hsame := successes_quiet events quiet
  refine ⟨hsame ▸ advancing.inOrder, ?_, ?_⟩
  · rw [hsame, quiet.current]
    exact advancing.current
  · rw [quiet.current]
    exact fun number h => quiet.grows.isProcessed (advancing.processed number h)

/-- The chosen number continues the order. -/
theorem next_inOrder {events : List Event} {watcher : Watcher} {cache : Cache} {number : String}
    (advancing : Advancing events watcher cache)
    (candidate : watcher.candidate cache = .ok (some number)) :
    ∃ first, InOrder first (successes events) ∧
      ∀ before after : Snapshot, before.watcher = watcher → after.watcher.current = some number →
        Success.Follows first (successes events).length ⟨before, after, number⟩ := by
  obtain ⟨first, hrow⟩ := advancing.inOrder
  cases hlast : (successes events).getLast? with
  | none =>
      -- the first block of the row: its number becomes the beginning
      have hempty : successes events = [] := List.getLast?_eq_none_iff.mp hlast
      have hnew : watcher.current = none := by rw [advancing.current, hlast, Option.map_none]
      obtain ⟨head, bound, hlatest, hbound, hnumber⟩ :=
        Watcher.candidate_of_new hnew candidate
      have hstart : bound + ((successes events).length : Nat) = bound := by
        rw [hempty, List.length_nil, Int.natCast_zero, Int.add_zero]
      refine ⟨bound, by simp [InOrder, hempty], fun before after hbefore hafter => ⟨?_, ?_, hafter⟩⟩
      · rw [hstart]
        exact hnumber
      · exact ⟨head, bound, hbefore ▸ hlatest, hbound, Int.le_of_eq hstart, fun _ => rfl⟩
  | some previous =>
      have hcurrent : watcher.current = some previous.number := by
        rw [advancing.current, hlast, Option.map_some]
      rw [List.getLast?_eq_getElem?] at hlast
      have hpositive : 0 < (successes events).length := by
        have hindex := (List.getElem?_eq_some_iff.mp hlast).1
        omega
      have hprevious := (hrow _ _ hlast).number
      obtain ⟨head, bound, hlatest, hbound, hnumber, hle⟩ := Watcher.candidate_of_processed
        hcurrent hprevious (advancing.processed previous.number hcurrent) candidate
      have hnext : first + ((successes events).length - 1 : Nat) + 1 =
          first + ((successes events).length : Nat) := by omega
      rw [hnext] at hnumber hle
      refine ⟨first, hrow, fun before after hbefore hafter => ⟨hnumber, ?_, hafter⟩⟩
      exact ⟨head, bound, hbefore ▸ hlatest, hbound, hle, fun hzero => by omega⟩

/-- Preserved by an attempt that processes a block. -/
theorem completes {events : List Event} {shift worked after : Shift σ υ} {number : String}
    (advancing : Advancing (events ++ shift.history.reverse) shift.watcher shift.cache)
    (completes : Shift.Completes shift worked after number) :
    Advancing (events ++ after.history.reverse) after.watcher after.cache := by
  have hcurrent : after.watcher.current = some number := by rw [completes.watcher]
  have hrow := successes_completes events completes
  obtain ⟨first, hinOrder, hnext⟩ := advancing.next_inOrder completes.candidate
  refine ⟨⟨first, ?_⟩, ?_, ?_⟩
  · rw [hrow]
    exact hinOrder.concat (hnext shift.snapshot after.snapshot rfl hcurrent)
  · rw [hrow, List.getLast?_concat, hcurrent, Option.map_some]
  · intro other hother
    rw [hcurrent] at hother
    cases hother
    exact Cache.isProcessed_of_markProcessed completes.marked

/-- Run lemma: preserved by strides. -/
theorem strides {node : Node σ υ} {pace : Pace} {events : List Event} {start last : Shift σ υ}
    (strides : Shift.Strides node pace start last)
    (advancing : Advancing (events ++ start.history.reverse) start.watcher start.cache) :
    Advancing (events ++ last.history.reverse) last.watcher last.cache := by
  induction strides with
  | refl => exact advancing
  | tail _ stride ih =>
      rcases stride.quiet_or_completes with hquiet | ⟨worked, number, hcompletes⟩
      · exact ih.quiet hquiet
      · exact ih.completes hcompletes

end Advancing

namespace Session

/-- In every run, whatever the node answers and whatever is done to the shared cache meanwhile, the
blocks that a watcher processes are in order: the first one is the head that the watcher had seen,
each later one has the number after the one before, none is beyond the head, and each is the
current block when its attempt ends. -/
theorem processed_in_order (settings : Settings) (node : Node σ υ) (state : σ) (watchers : Nat)
    (steps : List (Step υ)) (place : Nat) :
    ∃ first, InOrder first
      (successes (eventsAt place ((new settings state watchers).play node steps).1)) := by
  cases hwatcher : (new settings state watchers).watchers[place]? with
  | none =>
      rw [eventsAt_of_absent node steps _ hwatcher]
      exact ⟨0, by simp [InOrder, successes]⟩
  | some watcher =>
      have hnew : watcher = {} := List.eq_of_mem_replicate (List.mem_of_getElem? hwatcher)
      have hbegin : Advancing [] watcher (new settings state watchers).cache := by
        rw [hnew]
        exact ⟨⟨0, by simp [InOrder, successes]⟩, rfl, fun number h => by cases h⟩
      obtain ⟨last, hlast⟩ := play_invariant node place (fun _ => True) Advancing
        (fun h hgrows => h.grow hgrows)
        (fun h hhistory _ hstrides => Advancing.strides hstrides (by simpa [hhistory] using h))
        steps (new settings state watchers) watcher [] hwatcher (by simp) hbegin
      exact hlast.inOrder

end Session

end BlockWatch
