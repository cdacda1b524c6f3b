import BlockWatch.Proofs.Shift.Resolution
import BlockWatch.Shift.Attempt

/-!
# How an attempt goes

Normative source: SPEC_FULL.md, section 4.3, `processNextBlock`:

    RPC failure here aborts the tick (logged, retried next tick).
    if any resolution in the group fails, the whole block-processing attempt for this tick is
    abandoned
    On full success, `Cache.SetBlockProcessed(nextBlockNumber)`.

`Obtaining` lists the ways in which a block is obtained, with what is observed of it, and
`BlockWork` those in which the work on a block goes.  `obtaining` and `blockWork` are the inversion
lemmas, and most of what is proved of these two functions goes by cases on them.

`Ending` lists the ways in which an attempt ends, with the moves that its work is made of.  It fails
to decide on a block, has nothing to do, does not get its block, has a setback with one of the
transactions, or processes the block and queues the announcement.  A block that cannot be marked
does not occur among them, since a block that was obtained stays in the cache
(`ending_processBlock`).
-/

set_option autoImplicit false

namespace BlockWatch.Shift

variable {σ υ : Type}

/-! ## The block -/

/-- The block of an attempt is available: the cache has it when the attempt begins, or the node
answers with it. -/
def Available (shift : Shift σ υ) (events : List Event) (number : String) : Prop :=
  (∃ block, shift.cache.block number = .ok block) ∨
    ∃ time block, Event.answered time (.block number) (.ok block) ∈ events

/-- How a block is obtained: what it comes to, what is observed of it, newest first, and the shift
after it. -/
inductive Obtaining (node : Node σ υ) (shift : Shift σ υ) (number : String) :
    Except Failure Block → List Event → Shift σ υ → Prop
  /-- the cache has the block -/
  | cached {block : Block} (stored : shift.cache.block number = .ok block) :
      Obtaining node shift number (.ok block) [] shift
  /-- the block is asked for, and the question fails -/
  | refused {failure : Failure} {records : List Record} {obtained : Shift σ υ}
      (lacked : shift.cache.blocks.contains number = false) (moves : Moves node shift obtained)
      (time : obtained.time = shift.time + node.latency shift.node (.block number)) :
      Obtaining node shift number (.error failure)
        (Event.exchange shift.time obtained.time (.block number) (.error failure) records)
        obtained
  /-- the block is asked for, and the answer is stored -/
  | answered {given block : Block} {records : List Record} {obtained : Shift σ υ}
      (lacked : shift.cache.blocks.contains number = false) (moves : Moves node shift obtained)
      (time : obtained.time = shift.time + node.latency shift.node (.block number))
      (stored : obtained.cache.block number = .ok block) :
      Obtaining node shift number (.ok block)
        (Event.exchange shift.time obtained.time (.block number) (.ok given) records) obtained

theorem obtaining (node : Node σ υ) (shift : Shift σ υ) (number : String) :
    ∃ events, (shift.obtainBlock node number).2.history = events ++ shift.history ∧
      Obtaining node shift number (shift.obtainBlock node number).1 events
        (shift.obtainBlock node number).2 := by
  unfold obtainBlock
  cases hcached : shift.cache.block number with
  | ok block => exact ⟨[], rfl, .cached hcached⟩
  | error missing =>
      have hlacked : shift.cache.blocks.contains number = false := by
        rw [Bool.eq_false_iff]
        intro hcontains
        obtain ⟨block, hblock⟩ := Cache.exists_block_of_contains hcontains
        rw [hcached] at hblock
        cases hblock
      obtain ⟨told, records, answer, hask, htime, hhistory, hmoves⟩ :=
        ask_told node shift (.block number)
      simp only [hask]
      rcases hmoves with ⟨failure, rfl, hrefused⟩ | ⟨given, rfl, hlearned⟩
      · exact ⟨_, hhistory, .refused hlacked hrefused htime⟩
      · obtain ⟨block, hblock⟩ := Cache.exists_block_of_contains
          (Cache.contains_addBlock told.cache number given)
        simp only [hblock]
        exact ⟨_, hhistory, .answered hlacked hlearned htime hblock⟩

/-- A block is obtained exactly if it is available, and without a setback. -/
theorem moves_obtainBlock (node : Node σ υ) (shift : Shift σ υ) (number : String) :
    ∃ events, Moves node shift (shift.obtainBlock node number).2 ∧
      (shift.obtainBlock node number).2.history = events ++ shift.history ∧
      Resolution.firstSetback events = none ∧
      ((∃ failure, (shift.obtainBlock node number).1 = .error failure ∧
          ¬ Available shift events number) ∨
        ∃ block, (shift.obtainBlock node number).1 = .ok block ∧
          (shift.obtainBlock node number).2.cache.block number = .ok block ∧
          Available shift events number) := by
  obtain ⟨events, hhistory, hobtaining⟩ := obtaining node shift number
  generalize (shift.obtainBlock node number).1 = result at hobtaining ⊢
  generalize (shift.obtainBlock node number).2 = obtained at hhistory hobtaining ⊢
  have hquiet : ∀ time answer records, Resolution.firstSetback
      (Event.exchange shift.time time (.block number) answer records) = none :=
    fun _ _ _ => congrArg List.getLast? (Event.filterMap_exchange _ (fun _ => rfl) _ _ _ _ _)
  refine ⟨events, ?_⟩
  cases hobtaining with
  | cached stored => exact ⟨.refl, hhistory, rfl, Or.inr ⟨_, rfl, stored, Or.inl ⟨_, stored⟩⟩⟩
  | refused lacked moves time =>
      refine ⟨moves, hhistory, hquiet _ _ _, Or.inl ⟨_, rfl, ?_⟩⟩
      -- the question failed, and no other was answered
      rintro (⟨block, hblock⟩ | ⟨time, block, h⟩)
      · rw [Cache.contains_of_block hblock] at lacked
        cases lacked
      · simp [Event.exchange] at h
  | answered lacked moves time stored =>
      exact ⟨moves, hhistory, hquiet _ _ _,
        Or.inr ⟨_, rfl, stored, Or.inr ⟨_, _, List.mem_cons_self⟩⟩⟩

/-! ## The work on a block -/

/-- How the work on a block goes: what it comes to, and the shift after it. -/
inductive BlockWork (node : Node σ υ) (pace : Pace) (shift : Shift σ υ) (number : String)
    (subscribers : List String) : Except Failure (Option String) → Shift σ υ → Prop
  /-- the block is not obtained -/
  | withheld {failure : Failure} {obtained : Shift σ υ}
      (got : shift.obtainBlock node number = (.error failure, obtained)) :
      BlockWork node pace shift number subscribers (.error failure) obtained
  /-- its resolution fails -/
  | setback {block : Block} {failure : Failure} {obtained worked : Shift σ υ}
      (got : shift.obtainBlock node number = (.ok block, obtained))
      (ran : Resolution.run node pace obtained block.transactions = (some failure, worked)) :
      BlockWork node pace shift number subscribers (.error failure) worked
  /-- it is resolved and cannot be marked -/
  | unmarked {block : Block} {missing : Failure} {obtained worked : Shift σ υ}
      (got : shift.obtainBlock node number = (.ok block, obtained))
      (ran : Resolution.run node pace obtained block.transactions = (none, worked))
      (marked : worked.cache.markProcessed number = .error missing) :
      BlockWork node pace shift number subscribers
        (.error (.consistency
          ("could not mark block " ++ number ++ " processed: " ++ missing.message))) worked
  /-- it is resolved, marked and announced -/
  | processed {block : Block} {obtained worked : Shift σ υ} {cache : Cache}
      (got : shift.obtainBlock node number = (.ok block, obtained))
      (ran : Resolution.run node pace obtained block.transactions = (none, worked))
      (marked : worked.cache.markProcessed number = .ok cache) :
      BlockWork node pace shift number subscribers (.ok (some number))
        ({ worked with cache, watcher := { worked.watcher with current := some number } }.spawn
          [.announce number subscribers])

theorem blockWork (node : Node σ υ) (pace : Pace) (shift : Shift σ υ) (number : String)
    (subscribers : List String) :
    BlockWork node pace shift number subscribers
      (shift.processBlock node pace number subscribers).1
      (shift.processBlock node pace number subscribers).2 := by
  unfold processBlock
  rcases got : shift.obtainBlock node number with ⟨result, obtained⟩
  cases result with
  | error failure => exact .withheld got
  | ok block =>
      rcases ran : Resolution.run node pace obtained block.transactions with ⟨outcome, worked⟩
      cases outcome with
      | some failure =>
          simp only [ran]
          exact .setback got ran
      | none =>
          cases marked : worked.cache.markProcessed number with
          | error missing =>
              simp only [ran, marked]
              exact .unmarked got ran marked
          | ok cache =>
              simp only [ran, marked]
              exact .processed got ran marked

/-! ## The ways in which an attempt ends -/

/-- How the work of an attempt goes: its events, newest first, what it comes to, and the shift
after it. -/
inductive Ending (node : Node σ υ) (shift : Shift σ υ) :
    List Event → Except Failure (Option String) → Shift σ υ → Prop
  /-- there is no telling what to work on -/
  | undecided {failure : Failure}
      (candidate : shift.watcher.candidate shift.cache = .error failure) :
      Ending node shift [] (.error failure) shift
  /-- there is nothing to work on -/
  | idle (candidate : shift.watcher.candidate shift.cache = .ok none) :
      Ending node shift [] (.ok none) shift
  /-- the node does not give the block -/
  | withheld {number : String} {events : List Event} {failure : Failure} {worked : Shift σ υ}
      (candidate : shift.watcher.candidate shift.cache = .ok (some number))
      (moves : Moves node shift worked) (history : worked.history = events ++ shift.history)
      (unavailable : ¬ Available shift events number) :
      Ending node shift events (.error failure) worked
  /-- the resolution of a transaction fails -/
  | setback {number : String} {events : List Event} {failure : Failure} {worked : Shift σ υ}
      (candidate : shift.watcher.candidate shift.cache = .ok (some number))
      (moves : Moves node shift worked) (history : worked.history = events ++ shift.history)
      (first : Resolution.firstSetback events = some failure) :
      Ending node shift events (.error failure) worked
  /-- the block is processed -/
  | processed {number : String} {events : List Event} {worked : Shift σ υ} {block : Block}
      {cache : Cache}
      (candidate : shift.watcher.candidate shift.cache = .ok (some number))
      (moves : Moves node shift worked) (history : worked.history = events ++ shift.history)
      (first : Resolution.firstSetback events = none)
      (stored : worked.cache.block number = .ok block)
      (taken : ∀ hash ∈ block.transactions,
        worked.cache.transactions.contains hash = true ∨ Resolution.Answered events hash)
      (marked : worked.cache.markProcessed number = .ok cache) :
      Ending node shift events (.ok (some number))
        ({ worked with cache, watcher := { worked.watcher with current := some number } }.spawn
          [.announce number shift.watcher.subscriptions])

theorem ending_processBlock (node : Node σ υ) (pace : Pace) (shift : Shift σ υ) {number : String}
    (candidate : shift.watcher.candidate shift.cache = .ok (some number)) :
    ∃ events, Ending node shift events
      (shift.processBlock node pace number shift.watcher.subscriptions).1
      (shift.processBlock node pace number shift.watcher.subscriptions).2 := by
  obtain ⟨early, hobtain, hearly, hquiet, hcases⟩ := moves_obtainBlock node shift number
  have resolved : ∀ {block outcome obtained worked},
      shift.obtainBlock node number = (.ok block, obtained) →
      Resolution.run node pace obtained block.transactions = (outcome, worked) →
      ∃ events, Moves node shift worked ∧ worked.history = events ++ shift.history ∧
        Resolution.firstSetback events = outcome ∧ worked.cache.block number = .ok block ∧
        ∀ hash ∈ block.transactions,
          worked.cache.transactions.contains hash = true ∨ Resolution.Answered events hash := by
    intro block outcome obtained worked got ran
    rw [got] at hobtain hearly hcases
    obtain ⟨late, hrun, hlate, hfirst, htaken⟩ :=
      Resolution.moves_run node pace obtained block.transactions
    rw [ran] at hrun hlate hfirst htaken
    obtain ⟨_, _, account⟩ := Account.of_moves hrun
    rcases hcases with ⟨failure, hresult, -⟩ | ⟨_, hresult, hstored, -⟩
    · cases hresult
    · cases hresult
      refine ⟨late ++ early, hobtain.trans hrun, by rw [hlate, hearly, List.append_assoc], ?_,
        account.grows.block hstored,
        fun hash hhash => (htaken hash hhash).imp id (·.append_right early)⟩
      rw [Resolution.firstSetback_append, hquiet]
      exact hfirst.symm
  have hwork := blockWork node pace shift number shift.watcher.subscriptions
  generalize (shift.processBlock node pace number shift.watcher.subscriptions).1 = result at hwork ⊢
  generalize (shift.processBlock node pace number shift.watcher.subscriptions).2 = after at hwork ⊢
  cases hwork with
  | withheld got =>
      rw [got] at hobtain hearly hcases
      rcases hcases with ⟨failure, hresult, hunavailable⟩ | ⟨block, hresult, -⟩
      · cases hresult
        exact ⟨early, .withheld candidate hobtain hearly hunavailable⟩
      · cases hresult
  | setback got ran =>
      obtain ⟨events, hmoves, hhistory, hfirst, -⟩ := resolved got ran
      exact ⟨events, .setback candidate hmoves hhistory hfirst⟩
  | unmarked got ran marked =>
      obtain ⟨_, -, -, -, hkept, -⟩ := resolved got ran
      obtain ⟨_, hmarked⟩ := Cache.markProcessed_of_contains (Cache.contains_of_block hkept)
      rw [marked] at hmarked
      cases hmarked
  | processed got ran marked =>
      obtain ⟨events, hmoves, hhistory, hfirst, hkept, htaken⟩ := resolved got ran
      exact ⟨events, .processed candidate hmoves hhistory hfirst hkept htaken marked⟩

theorem ending_advance (node : Node σ υ) (pace : Pace) (shift : Shift σ υ) :
    ∃ events, Ending node shift events (shift.advance node pace).1 (shift.advance node pace).2 := by
  unfold advance
  cases hcandidate : shift.watcher.candidate shift.cache with
  | error failure => exact ⟨[], .undecided hcandidate⟩
  | ok chosen =>
      cases chosen with
      | none => exact ⟨[], .idle hcandidate⟩
      | some number => exact ending_processBlock node pace shift hcandidate

/-- Every attempt is one of the endings. -/
theorem ending_attempt (node : Node σ υ) (pace : Pace) (shift : Shift σ υ) :
    ∃ events result after, Ending node shift events result after ∧
      shift.advance node pace = (result, after) ∧
      shift.attempt node pace =
        (result, after.observe (.attempted shift.snapshot after.snapshot result)) := by
  obtain ⟨events, hending⟩ := ending_advance node pace shift
  exact ⟨events, _, _, hending, rfl, rfl⟩

end BlockWatch.Shift
