import BlockWatch.Proofs.Shift.Batches
import BlockWatch.Proofs.Shift.Moves
import BlockWatch.Proofs.Shift.Phases

/-!
# What a resolution comes to

Normative source: SPEC_FULL.md, section 4.3, step 6 of `processNextBlock`, and section 10.9:

    The batch group join is **all-or-nothing with first-error**
    All tasks of a block are joined even after a failure; the first error observed is returned.

A resolution is made of moves, its failure is the first setback in its history, and every
transaction of the block ends in the cache or answered (`onward_run`).  `Onward` says this of any
part of a resolution and composes, so there is one lemma for each operation.  What carries it
through the batches is that flights are kept in the order of time and none is overdue (`Timely`).
-/

set_option autoImplicit false

namespace BlockWatch

variable {σ υ : Type}

/-! ## Receiving -/

namespace Shift

theorem receive_ok {node : Node σ υ} {shift : Shift σ υ} {ask : Ask} {answer : ask.Answer}
    {state : σ} (told : node.answer ask shift.node = (.ok answer, state)) :
    shift.receive node ask =
      (.ok answer,
        { shift with node := state }.observe (.answered shift.time ask (.ok answer))) := by
  simp only [receive, told]
  rfl

theorem receive_error {node : Node σ υ} {shift : Shift σ υ} {ask : Ask}
    {explanation : Explanation} {state : σ}
    (told : node.answer ask shift.node = (.error explanation, state)) :
    shift.receive node ask =
      (.error (ask.failure explanation),
        { shift with node := state }.observe
          (.answered shift.time ask (.error (ask.failure explanation)))) := by
  simp only [receive, told]
  rfl

/-- A question is asked, time passes, and the answer is received, which the cache can learn. -/
theorem ask_told (node : Node σ υ) (shift : Shift σ υ) (ask : Ask) :
    ∃ (told : Shift σ υ) (records : List Record) (answer : Except Failure ask.Answer),
      shift.ask node ask = (answer, told) ∧
        told.time = shift.time + node.latency shift.node ask ∧
        told.history =
          Event.exchange shift.time told.time ask answer records ++ shift.history ∧
        ((∃ failure, answer = .error failure ∧ Moves node shift told) ∨
          ∃ value, answer = .ok value ∧
            Moves node shift { told with cache := told.cache.learn ask value }) := by
  obtain ⟨waited, records, hmoves, htime, hhistory, hask⟩ := moves_ask node shift ask
  have exchanged : ∀ answer : Except Failure ask.Answer,
      .answered waited.time ask answer :: waited.history =
        Event.exchange shift.time waited.time ask answer records ++ shift.history := by
    intro answer
    rw [hhistory, Event.exchange, List.cons_append, List.append_assoc, List.singleton_append]
  rw [hask]
  rcases htold : node.answer ask waited.node with ⟨answer, state⟩
  cases answer with
  | error explanation =>
      exact ⟨_, records, _, receive_error htold, htime, exchanged _,
        Or.inl ⟨_, rfl, hmoves.tail (.refuse htold)⟩⟩
  | ok value =>
      exact ⟨_, records, _, receive_ok htold, htime, exchanged _,
        Or.inr ⟨value, rfl, hmoves.tail (.learn htold)⟩⟩

end Shift

namespace Resolution

/-! ## Setbacks and answers -/

/-- The first setback among events, newest first. -/
def firstSetback (events : List Event) : Option Failure :=
  (events.filterMap Event.setback?).getLast?

theorem firstSetback_append (late early : List Event) :
    firstSetback (late ++ early) = (firstSetback early <|> firstSetback late) := by
  simp only [firstSetback, List.filterMap_append, List.getLast?_append, Option.orElse_eq_orElse,
    Option.orElse_eq_or]

theorem firstSetback_records (records : List Record) :
    firstSetback (records.map Event.recorded) = none := by
  rw [firstSetback, Event.filterMap_recorded fun _ => rfl, List.getLast?_nil]

/-- The question for a transaction came to its end, in one way or the other. -/
def Answered (events : List Event) (hash : String) : Prop :=
  ∃ time answer, Event.answered time (.transaction hash) answer ∈ events

theorem Answered.append_left {early : List Event} {hash : String} (h : Answered early hash)
    (late : List Event) : Answered (late ++ early) hash := by
  obtain ⟨time, answer, hmem⟩ := h
  exact ⟨time, answer, List.mem_append_right _ hmem⟩

theorem Answered.append_right {late : List Event} {hash : String} (h : Answered late hash)
    (early : List Event) : Answered (late ++ early) hash := by
  obtain ⟨time, answer, hmem⟩ := h
  exact ⟨time, answer, List.mem_append_left _ hmem⟩

/-! ## Going on -/

/-- A resolution after some of its work, with the events of that work, newest first. -/
structure Onward (node : Node σ υ) (before after : Resolution σ υ) (events : List Event) :
    Prop where
  moves : Shift.Moves node before.shift after.shift
  history : after.shift.history = events ++ before.shift.history
  failure : after.failure = (before.failure <|> firstSetback events)
  /-- a flight that is not waited for any more has been answered -/
  landed : ∀ flight ∈ before.flights, flight ∈ after.flights ∨ Answered events flight.hash
  phases : Shift.Phases node before.shift after.shift

theorem Onward.refl (node : Node σ υ) (resolution : Resolution σ υ) :
    Onward node resolution resolution [] where
  moves := .refl
  history := rfl
  failure := by simp [firstSetback]
  landed flight h := Or.inl h
  phases := .refl

theorem Onward.trans {node : Node σ υ} {before middle after : Resolution σ υ}
    {early late : List Event} (first : Onward node before middle early)
    (last : Onward node middle after late) : Onward node before after (late ++ early) where
  moves := first.moves.trans last.moves
  history := by rw [last.history, first.history, List.append_assoc]
  failure := by
    rw [last.failure, first.failure, firstSetback_append]
    cases before.failure <;> rfl
  landed flight h := by
    rcases first.landed flight h with h | h
    · exact (last.landed flight h).imp id (Answered.append_right · early)
    · exact Or.inr (h.append_left late)
  phases := first.phases.trans last.phases

theorem Onward.drop {node : Node σ υ} {before after : Resolution σ υ} {events : List Event}
    (onward : Onward node before after events) {flight : Flight} (rest : List Flight)
    (answered : Answered events flight.hash) :
    Onward node { before with flights := flight :: rest } { after with flights := rest }
      events where
  moves := onward.moves
  history := onward.history
  failure := onward.failure
  landed other h := by
    rcases List.mem_cons.mp h with rfl | h
    · exact Or.inr answered
    · exact Or.inl h
  phases := onward.phases

/-- The flights are in the order of time, and none is overdue. -/
structure Timely (resolution : Resolution σ υ) : Prop where
  sorted : resolution.flights.Pairwise (·.due ≤ ·.due)
  ahead : ∀ flight ∈ resolution.flights, resolution.shift.time ≤ flight.due

theorem onward_passUntil (node : Node σ υ) {time : Nat} {resolution : Resolution σ υ}
    (h : resolution.shift.time ≤ time) :
    ∃ events, Onward node resolution
      { resolution with shift := resolution.shift.passUntil node time } events := by
  obtain ⟨records, hrecords⟩ := Shift.passUntil_history node time resolution.shift
  refine ⟨records.map Event.recorded, Shift.moves_passUntil node h, hrecords, ?_, ?_,
    .single (.wait h)⟩
  · rw [firstSetback_records]
    cases resolution.failure <;> rfl
  · exact fun flight h => Or.inl h

/-! ## Landing -/

theorem land_of_crashes {node : Node σ υ} {resolution : Resolution σ υ} {hash : String}
    (h : node.crashes resolution.shift.node hash = true) :
    resolution.land node hash =
      { resolution with
        shift := resolution.shift.observe
          (.answered resolution.shift.time (.transaction hash) (.error .taskCrashed))
        failure := resolution.failure <|> some .taskCrashed } := by
  simp only [land, if_pos h]

theorem land_of_ok {node : Node σ υ} {resolution : Resolution σ υ} {hash : String}
    {transaction : Transaction} {state : σ}
    (h : ¬ node.crashes resolution.shift.node hash = true)
    (told : node.answer (.transaction hash) resolution.shift.node = (.ok transaction, state)) :
    resolution.land node hash =
      { resolution with
        shift := { resolution.shift with
            node := state
            cache := resolution.shift.cache.learn (.transaction hash) transaction }.observe
          (.answered resolution.shift.time (.transaction hash) (.ok transaction)) } := by
  simp only [land, if_neg h, Shift.receive_ok told]
  rfl

theorem land_of_error {node : Node σ υ} {resolution : Resolution σ υ} {hash : String}
    {explanation : Explanation} {state : σ}
    (h : ¬ node.crashes resolution.shift.node hash = true)
    (told : node.answer (.transaction hash) resolution.shift.node = (.error explanation, state)) :
    resolution.land node hash =
      { resolution with
        shift := { resolution.shift with node := state }.observe
          (.answered resolution.shift.time (.transaction hash)
            (.error (Ask.failure (.transaction hash) explanation)))
        failure := resolution.failure <|> some (Ask.failure (.transaction hash) explanation) } := by
  simp only [land, if_neg h, Shift.receive_error told]

/-- A transaction lands in one move, with its answer in the history. -/
theorem onward_land (node : Node σ υ) (resolution : Resolution σ υ) (hash : String) :
    ∃ answer, Onward node resolution (resolution.land node hash)
      [.answered resolution.shift.time (.transaction hash) answer] ∧
      (resolution.land node hash).flights = resolution.flights ∧
      (resolution.land node hash).shift.time = resolution.shift.time := by
  by_cases hcrashes : node.crashes resolution.shift.node hash = true
  · rw [land_of_crashes hcrashes]
    refine ⟨.error .taskCrashed,
      ⟨.single (.crash hcrashes), rfl, rfl, ?_, .single (.note _ _ _ _ _ _)⟩, rfl, rfl⟩
    exact fun flight h => Or.inl h
  · rcases htold : node.answer (.transaction hash) resolution.shift.node with ⟨told, state⟩
    cases told with
    | ok transaction =>
        rw [land_of_ok hcrashes htold]
        refine ⟨.ok transaction,
          ⟨.single (.learn htold), rfl, ?_, ?_, .single (.note _ _ _ _ _ _)⟩, rfl, rfl⟩
        · cases resolution.failure <;> rfl
        · exact fun flight h => Or.inl h
    | error explanation =>
        rw [land_of_error hcrashes htold]
        refine ⟨.error (Ask.failure (.transaction hash) explanation),
          ⟨.single (.refuse htold), rfl, rfl, ?_, .single (.note _ _ _ _ _ _)⟩, rfl, rfl⟩
        exact fun flight h => Or.inl h

theorem onward_await (node : Node σ υ) {resolution : Resolution σ υ} {flight : Flight}
    (h : resolution.shift.time ≤ flight.due) :
    ∃ events, Onward node resolution (resolution.await node flight) events ∧
      Answered events flight.hash ∧ (resolution.await node flight).shift.time = flight.due := by
  obtain ⟨waiting, hwaiting⟩ := onward_passUntil node h
  obtain ⟨answer, hland, -, htime⟩ := onward_land node
    { resolution with shift := resolution.shift.passUntil node flight.due } flight.hash
  exact ⟨_, hwaiting.trans hland, ⟨_, answer, List.mem_cons_self⟩, htime⟩

/-- The other flights stay in the order of time and ahead. -/
theorem Timely.await {node : Node σ υ} {resolution : Resolution σ υ} {flight : Flight}
    {rest : List Flight} (timely : Timely { resolution with flights := flight :: rest })
    (now : (resolution.await node flight).shift.time = flight.due) :
    Timely { resolution.await node flight with flights := rest } := by
  obtain ⟨hfirst, hsorted⟩ := List.pairwise_cons.mp timely.sorted
  refine ⟨hsorted, ?_⟩
  intro other hother
  show (resolution.await node flight).shift.time ≤ other.due
  rw [now]
  exact hfirst other hother

/-- What is due by a time lands, and what is left is due later. -/
theorem onward_landUntil (node : Node σ υ) (time : Nat) (flights : List Flight) :
    ∀ resolution : Resolution σ υ, Timely { resolution with flights } →
      resolution.shift.time ≤ time →
      ∃ events, Onward node { resolution with flights } (landUntil node time resolution flights)
          events ∧
        Timely (landUntil node time resolution flights) ∧
        (landUntil node time resolution flights).shift.time ≤ time ∧
        ∀ flight ∈ (landUntil node time resolution flights).flights, time ≤ flight.due := by
  induction flights with
  | nil =>
      intro resolution htimely htime
      exact ⟨[], Onward.refl node _, htimely, htime, by simp [landUntil]⟩
  | cons flight rest ih =>
      intro resolution htimely htime
      unfold landUntil
      by_cases hdue : flight.due ≤ time
      · rw [if_pos hdue]
        have hahead : resolution.shift.time ≤ flight.due :=
          htimely.ahead flight List.mem_cons_self
        obtain ⟨waiting, hawait, hanswered, hnow⟩ := onward_await node hahead
        obtain ⟨events, honward, htail⟩ :=
          ih (resolution.await node flight) (htimely.await hnow) (hnow ▸ hdue)
        exact ⟨events ++ waiting, (hawait.drop rest hanswered).trans honward, htail⟩
      · rw [if_neg hdue]
        refine ⟨[], Onward.refl node _, htimely, htime, ?_⟩
        intro other hother
        have hlate : time ≤ flight.due := by omega
        rcases List.mem_cons.mp hother with rfl | hother
        · exact hlate
        · exact Nat.le_trans hlate ((List.pairwise_cons.mp htimely.sorted).1 other hother)

theorem onward_reach (node : Node σ υ) {time : Nat} {resolution : Resolution σ υ}
    (htimely : Timely resolution) (h : resolution.shift.time ≤ time) :
    ∃ events, Onward node resolution (resolution.reach node time) events ∧
      Timely (resolution.reach node time) ∧ (resolution.reach node time).shift.time = time := by
  obtain ⟨landing, hland, hland_timely, htime, hahead⟩ :=
    onward_landUntil node time resolution.flights resolution htimely h
  obtain ⟨passing, hpass⟩ := onward_passUntil node htime
  exact ⟨passing ++ landing, hland.trans hpass, ⟨hland_timely.sorted, hahead⟩, rfl⟩

theorem onward_pauseAt (node : Node σ υ) (pace : Pace) {resolution : Resolution σ υ}
    (timely : Timely resolution) (place : Nat) :
    ∃ events, Onward node resolution (resolution.pauseAt node pace place) events ∧
      Timely (resolution.pauseAt node pace place) := by
  unfold pauseAt
  split
  · obtain ⟨events, honward, htimely, -⟩ :=
      onward_reach node timely (Nat.le_add_right resolution.shift.time pace.batchDelay)
    exact ⟨events, honward, htimely⟩
  · exact ⟨[], Onward.refl node resolution, timely⟩

/-! ## Starting -/

theorem mem_enqueue {flight other : Flight} {flights : List Flight} :
    other ∈ enqueue flight flights ↔ other = flight ∨ other ∈ flights := by
  induction flights with
  | nil => simp [enqueue]
  | cons first rest ih =>
      unfold enqueue
      split
      · simp
      · simp only [List.mem_cons, ih]
        exact or_left_comm

theorem pairwise_enqueue (flight : Flight) {flights : List Flight}
    (h : flights.Pairwise (·.due ≤ ·.due)) : (enqueue flight flights).Pairwise (·.due ≤ ·.due) := by
  induction flights with
  | nil => exact List.pairwise_singleton _ _
  | cons first rest ih =>
      obtain ⟨hfirst, hrest⟩ := List.pairwise_cons.mp h
      unfold enqueue
      split
      · rename_i hlt
        refine List.pairwise_cons.mpr ⟨?_, h⟩
        intro other hother
        rcases List.mem_cons.mp hother with rfl | hother
        · exact Nat.le_of_lt hlt
        · exact Nat.le_trans (Nat.le_of_lt hlt) (hfirst other hother)
      · rename_i hnot
        refine List.pairwise_cons.mpr ⟨?_, ih hrest⟩
        intro other hother
        rcases mem_enqueue.mp hother with rfl | hother
        · exact Nat.le_of_not_lt hnot
        · exact hfirst other hother

/-- A transaction that was started: the cache has it, its question was answered, or it is waited
for. -/
def Taken (resolution : Resolution σ υ) (events : List Event) (hash : String) : Prop :=
  resolution.shift.cache.transactions.contains hash = true ∨ Answered events hash ∨
    ∃ flight ∈ resolution.flights, flight.hash = hash

theorem Onward.grows {node : Node σ υ} {before after : Resolution σ υ} {events : List Event}
    (onward : Onward node before after events) :
    Cache.Grows before.shift.cache after.shift.cache := by
  obtain ⟨_, _, account⟩ := Shift.Account.of_moves onward.moves
  exact account.grows

theorem Taken.append_left {resolution : Resolution σ υ} {late : List Event} {hash : String}
    (taken : Taken resolution late hash) (early : List Event) :
    Taken resolution (late ++ early) hash :=
  taken.imp id (Or.imp (Answered.append_right · early) id)

theorem Taken.onward {node : Node σ υ} {before after : Resolution σ υ} {early late : List Event}
    {hash : String} (taken : Taken before early hash) (onward : Onward node before after late) :
    Taken after (late ++ early) hash := by
  rcases taken with h | h | ⟨flight, hflight, rfl⟩
  · exact Or.inl (onward.grows.contains h)
  · exact Or.inr (Or.inl (h.append_left late))
  · rcases onward.landed flight hflight with h | h
    · exact Or.inr (Or.inr ⟨flight, h, rfl⟩)
    · exact Or.inr (Or.inl (h.append_right early))

/-- A resolution in which a transaction was started and asked for. -/
def posed (resolution : Resolution σ υ) (place : Nat) (hash : String) : Resolution σ υ :=
  { resolution with
    shift := (resolution.shift.observe (.resolving resolution.shift.time place hash)).observe
      (.asked resolution.shift.time (.transaction hash)) }

theorem start_of_cached (node : Node σ υ) {resolution : Resolution σ υ} (place : Nat)
    {hash : String} (h : resolution.shift.cache.transactions.contains hash = true) :
    resolution.start node place hash =
      { resolution with
        shift := resolution.shift.observe (.resolving resolution.shift.time place hash) } :=
  if_pos h

theorem start_of_uncached (node : Node σ υ) {resolution : Resolution σ υ} (place : Nat)
    {hash : String} (h : ¬ resolution.shift.cache.transactions.contains hash = true) :
    resolution.start node place hash =
      if node.latency resolution.shift.node (.transaction hash) = 0 then
        (resolution.posed place hash).land node hash
      else
        { resolution.posed place hash with
          flights := enqueue
            ⟨hash, resolution.shift.time +
              node.latency resolution.shift.node (.transaction hash)⟩ resolution.flights } :=
  if_neg h

theorem onward_posed (node : Node σ υ) (resolution : Resolution σ υ) (place : Nat)
    (hash : String) :
    Onward node resolution (resolution.posed place hash)
      [.asked resolution.shift.time (.transaction hash),
        .resolving resolution.shift.time place hash] where
  moves := .tail (.single (.start place hash)) (.ask (.transaction hash))
  history := rfl
  failure := by
    show resolution.failure = (resolution.failure <|> none)
    cases resolution.failure <;> rfl
  landed flight h := Or.inl h
  phases := .tail (.single (Shift.phase_observe node resolution.shift _))
    (Shift.phase_observe node _ _)

/-- A transaction is started in no time. -/
theorem onward_start (node : Node σ υ) {resolution : Resolution σ υ} (timely : Timely resolution)
    (place : Nat) (hash : String) :
    ∃ events, Onward node resolution (resolution.start node place hash) events ∧
      Timely (resolution.start node place hash) ∧
      (resolution.start node place hash).shift.time = resolution.shift.time ∧
      Taken (resolution.start node place hash) events hash := by
  by_cases hcached : resolution.shift.cache.transactions.contains hash = true
  · rw [start_of_cached node place hcached]
    refine ⟨[.resolving resolution.shift.time place hash], ?_, ⟨timely.sorted, timely.ahead⟩, rfl,
      Or.inl hcached⟩
    refine ⟨.single (.start place hash), rfl, ?_, fun flight h => Or.inl h,
      .single (Shift.phase_observe node resolution.shift _)⟩
    show resolution.failure = (resolution.failure <|> none)
    cases resolution.failure <;> rfl
  · rw [start_of_uncached node place hcached]
    have hposed := onward_posed node resolution place hash
    split
    · obtain ⟨answer, hland, hflights, htime⟩ := onward_land node (resolution.posed place hash) hash
      refine ⟨_, hposed.trans hland, ⟨?_, ?_⟩, htime, ?_⟩
      · rw [hflights]
        exact timely.sorted
      · rw [hflights, htime]
        exact timely.ahead
      · exact Or.inr (Or.inl ⟨_, answer, List.mem_cons_self⟩)
    · refine ⟨_, ⟨hposed.moves, hposed.history, hposed.failure, ?_, hposed.phases⟩, ⟨?_, ?_⟩, rfl,
        ?_⟩
      · intro flight h
        exact Or.inl (mem_enqueue.mpr (Or.inr h))
      · exact pairwise_enqueue _ timely.sorted
      · intro flight h
        rcases mem_enqueue.mp h with rfl | h
        · exact Nat.le_add_right _ _
        · exact timely.ahead flight h
      · exact Or.inr (Or.inr ⟨_, mem_enqueue.mpr (Or.inl rfl), rfl⟩)

/-- Run lemma: all transactions from a place on are started. -/
theorem onward_startFrom (node : Node σ υ) (pace : Pace) (hashes : List String) :
    ∀ (place : Nat) (resolution : Resolution σ υ), Timely resolution →
      ∃ events, Onward node resolution (startFrom node pace place resolution hashes) events ∧
        Timely (startFrom node pace place resolution hashes) ∧
        ∀ hash ∈ hashes, Taken (startFrom node pace place resolution hashes) events hash := by
  induction hashes with
  | nil =>
      intro place resolution timely
      exact ⟨[], Onward.refl node resolution, timely, by simp⟩
  | cons hash rest ih =>
      intro place resolution timely
      obtain ⟨pausing, hpause, hpaused⟩ := onward_pauseAt node pace timely place
      obtain ⟨starting, hstart, hstarted, -, htaken⟩ := onward_start node hpaused place hash
      obtain ⟨events, honward, hlast, hall⟩ := ih (place + 1) _ hstarted
      refine ⟨events ++ (starting ++ pausing), (hpause.trans hstart).trans honward, hlast, ?_⟩
      intro other hother
      rcases List.mem_cons.mp hother with rfl | hother
      · exact htaken.append_left pausing |>.onward honward
      · exact (hall other hother).append_left _

/-! ## The whole resolution -/

/-- Run lemma: all flights are awaited. -/
theorem onward_awaitAll (node : Node σ υ) (flights : List Flight) :
    ∀ resolution : Resolution σ υ, Timely { resolution with flights } →
      ∃ events, Onward node { resolution with flights }
        { flights.foldl (await node) resolution with flights := [] } events := by
  induction flights with
  | nil =>
      intro resolution _
      exact ⟨[], Onward.refl node _⟩
  | cons flight rest ih =>
      intro resolution timely
      have hahead : resolution.shift.time ≤ flight.due := timely.ahead flight List.mem_cons_self
      obtain ⟨waiting, hawait, hanswered, hnow⟩ := onward_await node hahead
      obtain ⟨events, honward⟩ := ih (resolution.await node flight) (timely.await hnow)
      exact ⟨events ++ waiting, (hawait.drop rest hanswered).trans honward⟩

/-- The loop over batches, as one over transactions. -/
theorem run_eq (node : Node σ υ) (pace : Pace) (shift : Shift σ υ) (hashes : List String) :
    run node pace shift hashes =
      (((startFrom node pace 0 { shift } hashes).flights.foldl (await node)
          (startFrom node pace 0 { shift } hashes)).failure,
        ((startFrom node pace 0 { shift } hashes).flights.foldl (await node)
          (startFrom node pace 0 { shift } hashes)).shift) := by
  rw [run, startBatches_eq]

theorem onward_run (node : Node σ υ) (pace : Pace) (shift : Shift σ υ) (hashes : List String) :
    ∃ ended events, Onward node { shift } ended events ∧
      run node pace shift hashes = (ended.failure, ended.shift) ∧
      ∀ hash ∈ hashes,
        ended.shift.cache.transactions.contains hash = true ∨ Answered events hash := by
  have hbegin : Timely ({ shift } : Resolution σ υ) := ⟨List.Pairwise.nil, by simp⟩
  obtain ⟨starting, hstart, hstarted, hall⟩ := onward_startFrom node pace hashes 0 { shift } hbegin
  obtain ⟨ending, hend⟩ :=
    onward_awaitAll node _ (startFrom node pace 0 { shift } hashes) hstarted
  refine ⟨_, ending ++ starting, hstart.trans hend, run_eq node pace shift hashes, ?_⟩
  intro hash hhash
  rcases (hall hash hhash).onward hend with h | h | ⟨flight, h, -⟩
  · exact Or.inl h
  · exact Or.inr h
  · exact absurd h List.not_mem_nil

/-- A resolution has the first setback as its failure, and leaves no transaction unanswered. -/
theorem moves_run (node : Node σ υ) (pace : Pace) (shift : Shift σ υ) (hashes : List String) :
    ∃ events, Shift.Moves node shift (run node pace shift hashes).2 ∧
      (run node pace shift hashes).2.history = events ++ shift.history ∧
      (run node pace shift hashes).1 = firstSetback events ∧
      ∀ hash ∈ hashes,
        (run node pace shift hashes).2.cache.transactions.contains hash = true ∨
          Answered events hash := by
  obtain ⟨ended, events, honward, hrun, hall⟩ := onward_run node pace shift hashes
  rw [hrun]
  exact ⟨events, honward.moves, honward.history, honward.failure.trans (Option.none_or ..), hall⟩

theorem phases_run (node : Node σ υ) (pace : Pace) (shift : Shift σ υ) (hashes : List String) :
    Shift.Phases node shift (run node pace shift hashes).2 := by
  obtain ⟨ended, events, honward, hrun, -⟩ := onward_run node pace shift hashes
  rw [hrun]
  exact honward.phases

end Resolution

end BlockWatch
