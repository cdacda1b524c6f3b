import BlockWatch.Proofs.Shift.Attempt

/-!
# What an attempt leaves and what it keeps

Normative source: SPEC_FULL.md, section 7:

    Partial failure inside a block's transaction batch is scoped to that block: it aborts only the
    current attempt, preserving cached partial progress for the next tick's retry, and never
    corrupts `currentBlock`.

`attempt_frame` is about every attempt.  What was answered in it is in the cache after it
(`Learned`).  Unless it processes a block it leaves the watcher to what is done to it meanwhile,
marks nothing, queues nothing and tells nobody (`LeftAlone`).  If its block is available, the
transactions decide (`Decided`): the block is processed if none of them has a setback, and otherwise
the attempt fails with the setback that came first.

The proof is by cases on `Ending`, with the `Account` of the moves of each case.
-/

set_option autoImplicit false

namespace BlockWatch

variable {σ υ : Type}

/-! ## The first setback -/

namespace Resolution

theorem setback?_eq_some_iff {event : Event} {failure : Failure} :
    event.setback? = some failure ↔
      ∃ time hash, event = .answered time (.transaction hash) (.error failure) := by
  constructor
  · intro h
    unfold Event.setback? at h
    split at h
    · cases h
      exact ⟨_, _, rfl⟩
    · cases h
  · rintro ⟨time, hash, rfl⟩
    rfl

theorem firstSetback_eq_none_iff {events : List Event} :
    firstSetback events = none ↔ ∀ time hash failure,
      Event.answered time (.transaction hash) (.error failure) ∉ events := by
  rw [firstSetback, List.getLast?_eq_none_iff, List.filterMap_eq_nil_iff]
  constructor
  · intro hnone time hash failure hmem
    cases hnone _ hmem
  · intro habsent event hmem
    cases hsetback : event.setback? with
    | none => rfl
    | some failure =>
        obtain ⟨time, hash, rfl⟩ := setback?_eq_some_iff.mp hsetback
        exact absurd hmem (habsent time hash failure)

/-- Before the first setback there is none. -/
theorem exists_of_firstSetback {events : List Event} {failure : Failure}
    (h : firstSetback events = some failure) :
    ∃ late time hash early,
      events = late ++ .answered time (.transaction hash) (.error failure) :: early ∧
        firstSetback early = none := by
  induction events with
  | nil => cases h
  | cons event rest ih =>
      rw [← List.singleton_append, firstSetback_append] at h
      cases hrest : firstSetback rest with
      | some first =>
          rw [hrest] at h
          obtain ⟨late, time, hash, early, hsplit, hearly⟩ := ih (hrest.trans h)
          exact ⟨event :: late, time, hash, early, by rw [hsplit, List.cons_append], hearly⟩
      | none =>
          rw [hrest] at h
          have hevent : event.setback? = some failure := by
            cases hsetback : event.setback? with
            | none => simp [firstSetback, hsetback] at h
            | some only => simpa [firstSetback, hsetback] using h
          obtain ⟨time, hash, rfl⟩ := setback?_eq_some_iff.mp hevent
          exact ⟨[], time, hash, rest, rfl, hrest⟩

end Resolution

namespace Shift

/-! ## What is stated of an attempt -/

/-- A failure that came first among events, newest first: of all failed resolutions none had ended
before, and none at an earlier time. -/
def CameFirst (events : List Event) (failure : Failure) : Prop :=
  ∃ late time hash early,
    events = late ++ .answered time (.transaction hash) (.error failure) :: early ∧
      (∀ before other another,
        Event.answered before (.transaction other) (.error another) ∉ early) ∧
      ∀ after other another,
        Event.answered after (.transaction other) (.error another) ∈ late → time ≤ after

/-- The cache after some events has all it had, the blocks under the numbers that were answered,
and every transaction that was answered, under the hash that it carries. -/
structure Learned (before after : Cache) (events : List Event) : Prop where
  grows : Cache.Grows before after
  blocks : ∀ time number block, Event.answered time (.block number) (.ok block) ∈ events →
    after.blocks.contains number = true
  transactions : ∀ time hash transaction,
    Event.answered time (.transaction hash) (.ok transaction) ∈ events →
      after.transactions.contains transaction.hash = true

/-- Work changed nothing about the watcher and the marks that was not done by the appointments
kept meanwhile, and told nobody anything. -/
structure LeftAlone (before after : Shift σ υ) (events : List Event)
    (meanwhile : List (Appointment υ)) : Prop where
  current : after.watcher.current = before.watcher.current
  latest : after.watcher.latest = before.watcher.latest
  /-- no task was started that could tell somebody later -/
  tasks : after.watcher.tasks = before.watcher.tasks
  watcher : after.watcher = (meanwhile.map (·.action)).foldl Watcher.undergo before.watcher
  marks : ∀ number ∈ after.cache.processed, number ∈ before.cache.processed ∨
    number ∈ (meanwhile.map (·.action)).filterMap Action.marked?
  unnotified : ∀ notification, Event.notified notification ∉ events
  unwritten : ∀ record, Event.recorded record ∈ events →
    ∃ address, record = Watcher.subscribedRecord address

/-- The transactions of a block decide what comes of it. -/
structure Decided (events : List Event) (number : String)
    (result : Except Failure (Option String)) : Prop where
  processed_iff : result = .ok (some number) ↔
    ∀ time hash failure, Event.answered time (.transaction hash) (.error failure) ∉ events
  failed : result ≠ .ok (some number) →
    ∃ failure, result = .error failure ∧ CameFirst events failure

/-! ## Accounts of attempts -/

theorem foldl_undergo_current (actions : List (Action υ)) :
    ∀ watcher : Watcher, (actions.foldl Watcher.undergo watcher).current = watcher.current := by
  induction actions with
  | nil => exact fun _ => rfl
  | cons action rest ih =>
      intro watcher
      rw [List.foldl_cons, ih, Watcher.undergo_current]

theorem foldl_undergo_latest (actions : List (Action υ)) :
    ∀ watcher : Watcher, (actions.foldl Watcher.undergo watcher).latest = watcher.latest := by
  induction actions with
  | nil => exact fun _ => rfl
  | cons action rest ih =>
      intro watcher
      rw [List.foldl_cons, ih, Watcher.undergo_latest]

theorem foldl_undergo_tasks (actions : List (Action υ)) :
    ∀ watcher : Watcher, (actions.foldl Watcher.undergo watcher).tasks = watcher.tasks := by
  induction actions with
  | nil => exact fun _ => rfl
  | cons action rest ih =>
      intro watcher
      rw [List.foldl_cons, ih, Watcher.undergo_tasks]

theorem Account.of_history {node : Node σ υ} {start now : Shift σ υ} {events : List Event}
    (moves : Moves node start now) (history : now.history = events ++ start.history) :
    ∃ meanwhile, Account start now events meanwhile := by
  obtain ⟨counted, meanwhile, account⟩ := of_moves moves
  have hsame : counted = events := List.append_cancel_right (account.history.symm.trans history)
  exact ⟨meanwhile, hsame ▸ account⟩

theorem Account.learned {start now : Shift σ υ} {events : List Event}
    {meanwhile : List (Appointment υ)} (account : Account start now events meanwhile) :
    Learned start.cache now.cache events where
  grows := account.grows
  blocks := account.blocks
  transactions time hash transaction h := by
    refine (account.keys transaction.hash).mpr (Or.inr (Or.inl ⟨transaction, ?_, rfl⟩))
    exact List.mem_filterMap.mpr ⟨_, h, rfl⟩

theorem Account.leftAlone {start now : Shift σ υ} {events : List Event}
    {meanwhile : List (Appointment υ)} (account : Account start now events meanwhile) :
    LeftAlone start now events meanwhile where
  current := by rw [account.watcher, foldl_undergo_current]
  latest := by rw [account.watcher, foldl_undergo_latest]
  tasks := by rw [account.watcher, foldl_undergo_tasks]
  watcher := account.watcher
  marks := account.marks
  unnotified notification h := account.underWay _ h
  unwritten := account.records

/-- The first setback of an account came first in time. -/
theorem Account.cameFirst {start now : Shift σ υ} {events : List Event}
    {meanwhile : List (Appointment υ)} (account : Account start now events meanwhile)
    {failure : Failure} (first : Resolution.firstSetback events = some failure) :
    CameFirst events failure := by
  obtain ⟨late, time, hash, early, hsplit, hearly⟩ := Resolution.exists_of_firstSetback first
  refine ⟨late, time, hash, early, hsplit, Resolution.firstSetback_eq_none_iff.mp hearly, ?_⟩
  intro after other another hlate
  have hordered := account.ordered
  rw [hsplit, List.filterMap_append, List.pairwise_append] at hordered
  have hafter : after ∈ late.filterMap Event.time? := List.mem_filterMap.mpr ⟨_, hlate, rfl⟩
  exact hordered.2.2 after hafter time List.mem_cons_self

/-- The frame of each ending. -/
theorem Ending.frame {node : Node σ υ} {shift after : Shift σ υ} {events : List Event}
    {result : Except Failure (Option String)} (ending : Ending node shift events result after) :
    ∃ meanwhile, after.history = events ++ shift.history ∧
      shift.agenda = meanwhile ++ after.agenda ∧
      Learned shift.cache after.cache events ∧
      ((∀ number, result ≠ .ok (some number)) → LeftAlone shift after events meanwhile) ∧
      ∀ number, shift.watcher.candidate shift.cache = .ok (some number) →
        Available shift events number → Decided events number result := by
  cases ending with
  | undecided candidate =>
      have haccount := Account.refl shift
      refine ⟨[], rfl, rfl, haccount.learned, fun _ => haccount.leftAlone, ?_⟩
      intro number hnumber
      rw [candidate] at hnumber
      cases hnumber
  | idle candidate =>
      have haccount := Account.refl shift
      refine ⟨[], rfl, rfl, haccount.learned, fun _ => haccount.leftAlone, ?_⟩
      intro number hnumber
      rw [candidate] at hnumber
      cases hnumber
  | withheld candidate moves history unavailable =>
      obtain ⟨meanwhile, haccount⟩ := Account.of_history moves history
      refine ⟨meanwhile, history, haccount.agenda, haccount.learned,
        fun _ => haccount.leftAlone, ?_⟩
      intro number hnumber havailable
      rw [candidate] at hnumber
      cases hnumber
      exact absurd havailable unavailable
  | @setback chosen _ failure _ candidate moves history first =>
      obtain ⟨meanwhile, haccount⟩ := Account.of_history moves history
      refine ⟨meanwhile, history, haccount.agenda, haccount.learned,
        fun _ => haccount.leftAlone, ?_⟩
      intro number _ _
      refine ⟨⟨?_, ?_⟩, fun _ => ⟨failure, rfl, ?_⟩⟩
      · intro h
        cases h
      · intro habsent
        rw [← Resolution.firstSetback_eq_none_iff, first] at habsent
        cases habsent
      · exact haccount.cameFirst first
  | @processed chosen _ worked block cache candidate moves history first stored taken marked =>
      obtain ⟨meanwhile, haccount⟩ := Account.of_history moves history
      have hmarks := Cache.grows_markProcessed marked
      refine ⟨meanwhile, history, haccount.agenda, ⟨?_, ?_, ?_⟩, ?_, ?_⟩
      · exact haccount.grows.trans hmarks
      · intro time number answer h
        exact hmarks.containsBlock (haccount.blocks time number answer h)
      · intro time hash transaction h
        exact hmarks.contains (haccount.learned.transactions time hash transaction h)
      · exact fun hnot => absurd rfl (hnot chosen)
      · intro number hnumber _
        rw [candidate] at hnumber
        cases hnumber
        exact ⟨⟨fun _ => Resolution.firstSetback_eq_none_iff.mp first, fun _ => rfl⟩,
          fun hnot => absurd rfl hnot⟩

/-- For every attempt: between its beginning and its end lie its events and the appointments that
were kept.  It keeps what it learned.  Unless it processes a block it leaves the rest of watcher and
cache alone.  If the block is available, the transactions decide the result. -/
theorem attempt_frame (node : Node σ υ) (pace : Pace) (shift : Shift σ υ) :
    ∃ events meanwhile,
      (shift.attempt node pace).2.history =
        .attempted shift.snapshot (shift.attempt node pace).2.snapshot
          (shift.attempt node pace).1 :: (events ++ shift.history) ∧
      shift.agenda = meanwhile ++ (shift.attempt node pace).2.agenda ∧
      Learned shift.cache (shift.attempt node pace).2.cache events ∧
      ((∀ number, (shift.attempt node pace).1 ≠ .ok (some number)) →
        LeftAlone shift (shift.attempt node pace).2 events meanwhile) ∧
      ∀ number, shift.watcher.candidate shift.cache = .ok (some number) →
        Available shift events number → Decided events number (shift.attempt node pace).1 := by
  obtain ⟨events, hending⟩ := ending_advance node pace shift
  obtain ⟨meanwhile, hhistory, hagenda, hlearned, halone, hdecided⟩ := hending.frame
  refine ⟨events, meanwhile, ?_, hagenda, hlearned, fun hnot => ?_, hdecided⟩
  · show Event.attempted _ _ _ :: (shift.advance node pace).2.history = _
    rw [hhistory]
    rfl
  · have hleft := halone hnot
    exact ⟨hleft.current, hleft.latest, hleft.tasks, hleft.watcher, hleft.marks, hleft.unnotified,
      hleft.unwritten⟩

end Shift

end BlockWatch
