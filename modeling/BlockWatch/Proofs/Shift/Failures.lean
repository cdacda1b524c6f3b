import BlockWatch.Proofs.Shift.Attempt
import BlockWatch.Proofs.Stranded

/-!
# What an attempt fails with

Normative source: SPEC_FULL.md, section 7, for the kinds of failures, with

    `BadFormat` (malformed hex input to the codec)

The work on a block fails with the failure of a question or of a task, or because the cache lacks
the block (`Failure.IsOfWork`); no move fails in any other way (`Moves.failures`).  So an attempt
that fails at a spelling fails at the choice of its block, before it asks for anything, and a sound
watcher does so exactly when it is stranded (`attempt_of_stranded`, `stranded_of_attempt`).
-/

set_option autoImplicit false

namespace BlockWatch

variable {σ υ : Type}

/-! ## What the work on a block fails with -/

/-- A failure of the work on a block that was chosen. -/
def Failure.IsOfWork : Failure → Prop
  | .rpc _ _ | .taskCrashed | .consistency _ => True
  | _ => False

theorem Ask.isOfWork_failure (ask : Ask) (explanation : Explanation) :
    (ask.failure explanation).IsOfWork := by
  cases ask <;> trivial

namespace Shift

theorem Move.failures {node : Node σ υ} {shift after : Shift σ υ} (move : Move node shift after) :
    ∃ events, after.history = events ++ shift.history ∧
      ∀ time ask failure, Event.answered time ask (.error failure) ∈ events →
        failure.IsOfWork := by
  cases move with
  | @keep appointment rest next =>
      obtain ⟨records, hhistory, -⟩ := act_history node shift appointment.action
      refine ⟨records.map Event.recorded, hhistory, ?_⟩
      intro time ask failure h
      obtain ⟨record, -, hrecord⟩ := List.mem_map.mp h
      cases hrecord
  | pass later => exact ⟨[], rfl, by simp⟩
  | ask question => exact ⟨[_], rfl, by simp⟩
  | start place hash => exact ⟨[_], rfl, by simp⟩
  | learn told =>
      refine ⟨[_], rfl, ?_⟩
      intro time ask failure h
      cases List.mem_singleton.mp h
  | @refuse question explanation state told =>
      refine ⟨[_], rfl, ?_⟩
      intro time ask failure h
      cases List.mem_singleton.mp h
      exact Ask.isOfWork_failure question explanation
  | crash crashes =>
      refine ⟨[_], rfl, ?_⟩
      intro time ask failure h
      cases List.mem_singleton.mp h
      trivial

theorem Moves.failures {node : Node σ υ} {start now : Shift σ υ} (moves : Moves node start now) :
    ∃ events, now.history = events ++ start.history ∧
      ∀ time ask failure, Event.answered time ask (.error failure) ∈ events →
        failure.IsOfWork := by
  induction moves with
  | refl => exact ⟨[], rfl, by simp⟩
  | tail _ move ih =>
      obtain ⟨early, hearly, hearlier⟩ := ih
      obtain ⟨late, hlate, hlater⟩ := move.failures
      refine ⟨late ++ early, by rw [hlate, hearly, List.append_assoc], ?_⟩
      intro time ask failure h
      exact (List.mem_append.mp h).elim (hlater time ask failure) (hearlier time ask failure)

theorem Moves.isOfWork {node : Node σ υ} {start now : Shift σ υ} (moves : Moves node start now)
    {events : List Event} (history : now.history = events ++ start.history) {time : Nat} {ask : Ask}
    {failure : Failure} (h : Event.answered time ask (.error failure) ∈ events) :
    failure.IsOfWork := by
  obtain ⟨others, hothers, hfailures⟩ := moves.failures
  have hsame : events = others := List.append_cancel_right (history.symm.trans hothers)
  exact hfailures time ask failure (hsame ▸ h)

/-- The failure of a resolution is the failure of one of its answers. -/
theorem exists_of_firstSetback {events : List Event} {failure : Failure}
    (h : Resolution.firstSetback events = some failure) :
    ∃ time ask, Event.answered time ask (.error failure) ∈ events := by
  have hmem : failure ∈ events.filterMap Event.setback? := List.mem_of_getLast? h
  obtain ⟨event, hevent, hsetback⟩ := List.mem_filterMap.mp hmem
  cases event with
  | answered time ask answer =>
      cases ask with
      | transaction hash =>
          cases answer with
          | error other =>
              cases hsetback
              exact ⟨time, .transaction hash, hevent⟩
          | ok transaction => cases hsetback
      | head => cases hsetback
      | block number => cases hsetback
  | asked time ask => cases hsetback
  | resolving time place hash => cases hsetback
  | observed result => cases hsetback
  | attempted before after result => cases hsetback
  | announced number cache => cases hsetback
  | notified notification => cases hsetback
  | recorded record => cases hsetback

/-- The work on a block fails with a question, with a task, or because the cache lacks the block. -/
theorem isOfWork_of_processBlock {node : Node σ υ} {pace : Pace} {shift : Shift σ υ}
    {number : String} {subscribers : List String} {failure : Failure}
    (h : (shift.processBlock node pace number subscribers).1 = .error failure) :
    failure.IsOfWork := by
  have hresolved : ∀ (obtained : Shift σ υ) (hashes : List String) (first : Failure),
      (Resolution.run node pace obtained hashes).1 = some first → first.IsOfWork := by
    intro obtained hashes first hfirst
    obtain ⟨events, hmoves, hhistory, hrun, -⟩ :=
      Resolution.moves_run node pace obtained hashes
    obtain ⟨time, ask, hmem⟩ := exists_of_firstSetback (hrun.symm.trans hfirst)
    exact hmoves.isOfWork hhistory hmem
  have hobtained : ∀ first, (shift.obtainBlock node number).1 = .error first →
      first.IsOfWork := by
    intro first hfirst
    obtain ⟨events, hhistory, hobtaining⟩ := obtaining node shift number
    rw [hfirst] at hobtaining
    generalize (shift.obtainBlock node number).2 = obtained at hhistory hobtaining
    cases hobtaining with
    | refused lacked moves time => exact moves.isOfWork hhistory List.mem_cons_self
  have hwork := blockWork node pace shift number subscribers
  rw [h] at hwork
  cases hwork with
  | withheld got => exact hobtained failure (by rw [got])
  | setback got ran => exact hresolved _ _ failure (by rw [ran])
  | unmarked got ran marked => trivial

theorem failure_attempt {node : Node σ υ} {pace : Pace} {shift : Shift σ υ} {failure : Failure}
    (h : (shift.attempt node pace).1 = .error failure) :
    shift.watcher.candidate shift.cache = .error failure ∨ failure.IsOfWork := by
  unfold attempt advance at h
  cases hcandidate : shift.watcher.candidate shift.cache with
  | error undecided =>
      simp only [hcandidate] at h
      exact Or.inl h
  | ok chosen =>
      right
      simp only [hcandidate] at h
      cases chosen with
      | none => cases h
      | some number => exact isOfWork_of_processBlock h

theorem attempt_of_stranded (node : Node σ υ) (pace : Pace) {shift : Shift σ υ}
    (sound : shift.watcher.Sound shift.cache) {n : Int}
    (stranded : shift.watcher.Stranded shift.cache n) :
    (shift.attempt node pace).1 = .error (.invalidHex (Quantity.encode n) .tooLarge) := by
  simp only [attempt, advance, stranded.candidate sound]

theorem stranded_of_attempt {node : Node σ υ} {pace : Pace} {shift : Shift σ υ}
    (sound : shift.watcher.Sound shift.cache) {failure : Failure}
    (failed : (shift.attempt node pace).1 = .error failure) (spelling : ¬ failure.IsOfWork) :
    ∃ n, shift.watcher.Stranded shift.cache n ∧
      failure = .invalidHex (Quantity.encode n) .tooLarge := by
  have hchoice : shift.watcher.candidate shift.cache = .error failure :=
    (failure_attempt failed).resolve_right spelling
  rcases sound.candidate with ⟨chosen, hchosen⟩ | ⟨text, htext⟩ | ⟨n, hstranded⟩
  · rw [hchosen] at hchoice
    cases hchoice
  · rw [htext] at hchoice
    cases hchoice
    exact absurd trivial spelling
  · rw [hstranded.candidate sound] at hchoice
    exact ⟨n, hstranded, (Except.error.inj hchoice).symm⟩

end Shift

end BlockWatch
