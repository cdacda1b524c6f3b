import BlockWatch.Proofs.Shift.Strides
import BlockWatch.Proofs.Subscriptions

/-!
# What a shift does to the subscriptions

Normative source: SPEC_FULL.md, section 4.3, step 1 of `processNextBlock`:

    Snapshot `(subscriptions, currentBlock, latestBlock)` under lock; release lock before any
    network call.

Nothing but the actions that are done to a watcher changes its roster or that of its cache.  However
far a watcher comes in its work, the two rosters are what the appointments that were kept make of
them, one after the other (`Settles`, `Settles.of_strides`).
-/

set_option autoImplicit false

namespace BlockWatch

variable {σ υ : Type}

/-- The changes that actions ask for, in their order. -/
def changesOf (actions : List (Action υ)) : List Change := actions.filterMap Action.change?

theorem changesOf_append (early late : List (Action υ)) :
    changesOf (early ++ late) = changesOf early ++ changesOf late := List.filterMap_append

namespace Shift

/-- From one shift to another some actions were done, and the rosters are what these make of
them. -/
structure Settles (before after : Shift σ υ) (done : List (Action υ)) : Prop where
  agenda : before.agenda.map (·.action) = done ++ after.agenda.map (·.action)
  rosters : (∀ action ∈ done, ¬ action.IsDirect) →
    after.rosters = (changesOf done).foldl Change.enact before.rosters

namespace Settles

theorem of_same {before after : Shift σ υ} (agenda : after.agenda = before.agenda)
    (rosters : after.rosters = before.rosters) : Settles before after [] where
  agenda := by rw [agenda, List.nil_append]
  rosters _ := rosters

theorem trans {before middle after : Shift σ υ} {early late : List (Action υ)}
    (first : Settles before middle early) (last : Settles middle after late) :
    Settles before after (early ++ late) where
  agenda := by rw [first.agenda, last.agenda, List.append_assoc]
  rosters h := by
    rw [last.rosters fun action hlate => h action (List.mem_append_right early hlate),
      first.rosters fun action hearly => h action (List.mem_append_left late hearly),
      changesOf_append, List.foldl_append]

theorem of_move {node : Node σ υ} {shift after : Shift σ υ} (move : Move node shift after) :
    ∃ done, Settles shift after done := by
  cases move with
  | @keep appointment rest next =>
      refine ⟨[appointment.action], by rw [next, List.map_cons, List.singleton_append], ?_⟩
      intro h
      rw [show changesOf [appointment.action] = appointment.action.change?.toList by
        cases hchange : appointment.action.change? <;> simp [changesOf, hchange]]
      exact act_rosters node shift (h appointment.action List.mem_cons_self)
  | @learn ask answer state told =>
      refine ⟨[], of_same rfl ?_⟩
      cases ask <;> rfl
  | pass later => exact ⟨[], of_same rfl rfl⟩
  | ask question => exact ⟨[], of_same rfl rfl⟩
  | start place hash => exact ⟨[], of_same rfl rfl⟩
  | refuse told => exact ⟨[], of_same rfl rfl⟩
  | crash crashes => exact ⟨[], of_same rfl rfl⟩

theorem of_moves {node : Node σ υ} {start now : Shift σ υ} (moves : Moves node start now) :
    ∃ done, Settles start now done := by
  induction moves with
  | refl => exact ⟨[], of_same rfl rfl⟩
  | tail _ move ih =>
      obtain ⟨early, first⟩ := ih
      obtain ⟨late, last⟩ := of_move move
      exact ⟨early ++ late, first.trans last⟩

theorem of_observeHead (node : Node σ υ) (shift : Shift σ υ) :
    ∃ done, Settles shift (shift.observeHead node).2 done := by
  obtain ⟨listened, _, answer, hmoves, -, htold⟩ := observeHead_told node shift
  obtain ⟨done, hsettles⟩ := of_moves hmoves
  refine ⟨done ++ [], hsettles.trans ?_⟩
  rw [htold]
  refine of_same rfl ?_
  simp only [Shift.rosters, observe, Watcher.hear_subscriptions]

theorem of_attempt (node : Node σ υ) (pace : Pace) (shift : Shift σ υ) :
    ∃ done, Settles shift (shift.attempt node pace).2 done := by
  obtain ⟨events, result, after, hending, -, hattempt⟩ := ending_attempt node pace shift
  rw [hattempt]
  cases hending with
  | undecided candidate => exact ⟨[], of_same rfl rfl⟩
  | idle candidate => exact ⟨[], of_same rfl rfl⟩
  | withheld candidate moves history unavailable =>
      obtain ⟨done, hsettles⟩ := of_moves moves
      exact ⟨done ++ [], hsettles.trans (of_same rfl rfl)⟩
  | setback candidate moves history first =>
      obtain ⟨done, hsettles⟩ := of_moves moves
      exact ⟨done ++ [], hsettles.trans (of_same rfl rfl)⟩
  | @processed number _ worked block cache candidate moves history first stored taken marked =>
      obtain ⟨done, hsettles⟩ := of_moves moves
      obtain ⟨processed, rfl, -⟩ := Cache.markProcessed_eq marked
      exact ⟨done ++ [], hsettles.trans (of_same rfl rfl)⟩

theorem of_stride {node : Node σ υ} {pace : Pace} {shift after : Shift σ υ}
    (stride : Stride node pace shift after) : ∃ done, Settles shift after done := by
  cases stride with
  | move move => exact of_move move
  | observe => exact of_observeHead node shift
  | attempt => exact of_attempt node pace shift
  | settle =>
      rw [settle_eq]
      exact ⟨[], of_same rfl rfl⟩
  | write records =>
      rw [write_eq]
      exact ⟨[], of_same rfl rfl⟩
  | loop running stopped loops handle => exact ⟨[], of_same rfl rfl⟩

/-- Run lemma: only the actions that were done change the rosters. -/
theorem of_strides {node : Node σ υ} {pace : Pace} {start last : Shift σ υ}
    (strides : Strides node pace start last) : ∃ done, Settles start last done := by
  induction strides with
  | refl => exact ⟨[], of_same rfl rfl⟩
  | tail _ stride ih =>
      obtain ⟨early, first⟩ := ih
      obtain ⟨late, last⟩ := of_stride stride
      exact ⟨early ++ late, first.trans last⟩

end Settles

end Shift

end BlockWatch
