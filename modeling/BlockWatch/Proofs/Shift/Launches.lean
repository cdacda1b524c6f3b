import BlockWatch.Proofs.Shift.Resolution

/-!
# What is launched in a resolution

Normative source: SPEC_FULL.md, section 4.3, step 6 of `processNextBlock`:

    Resolve every transaction hash in the block concurrently, partitioned into fixed-size batches
    (default 25) separated by a fixed delay (default 2s) between batch launches

A resolution starts one transaction after the other, and asks for those that the cache lacks at that
moment.  `Resolution.launches` goes through a resolution again and keeps the shift of each of these
moments.  Everything that is asked for is first among the flights and in the end among the answers,
each at the time at which it is due: that is what `Tally` counts, with one lemma for each operation
of a resolution.

The times are those of the loop over batches, in which every batch but the first sleeps.
`startTime` is their closed form: by induction over the places, since it grows by the delay at
exactly those places before which the loop sleeps (`startTime_succ`, `map_launches`,
`startFrom_time`).
-/

set_option autoImplicit false

open scoped List

namespace BlockWatch

variable {σ υ : Type}

/-! ## Launches -/

namespace Resolution

/-- The start of the resolution of a transaction: its place in the block, and the shift at that
moment. -/
structure Launch (σ υ : Type) where
  place : Nat
  hash : String
  moment : Shift σ υ

namespace Launch

/-- Whether the transaction is asked for, which it is when the cache lacks it at that moment. -/
def asks (launch : Launch σ υ) : Bool :=
  !launch.moment.cache.transactions.contains launch.hash

/-- What can be observed of a launch, in its order. -/
def events (launch : Launch σ υ) : List Event :=
  .resolving launch.moment.time launch.place launch.hash ::
    if launch.asks then [.asked launch.moment.time (.transaction launch.hash)] else []

/-- The request of a launch and when the time for it is over. -/
def flight (node : Node σ υ) (launch : Launch σ υ) : Flight where
  hash := launch.hash
  due := launch.moment.time + node.latency launch.moment.node (.transaction launch.hash)

end Launch

end Resolution

namespace Event

/-- Whether an event is the start of a resolution or the request for a transaction. -/
def isLaunch : Event → Bool
  | .resolving _ _ _ => true
  | .asked _ (.transaction _) => true
  | _ => false

/-- The request for a transaction that is over, and when. -/
def flight? : Event → Option Flight
  | .answered time (.transaction hash) _ => some ⟨hash, time⟩
  | _ => none

end Event

theorem Event.filter_isLaunch_records (records : List Record) :
    (records.map Event.recorded).filter Event.isLaunch = [] := by
  rw [List.filter_eq_nil_iff]
  intro event hevent
  obtain ⟨record, -, rfl⟩ := List.mem_map.mp hevent
  exact Bool.false_ne_true

namespace Resolution

/-- The launches from a place on, each in the resolution in which its turn has come. -/
def launchesFrom (node : Node σ υ) (pace : Pace) (place : Nat) (resolution : Resolution σ υ) :
    List String → List (Launch σ υ)
  | [] => []
  | hash :: rest =>
      let paused := resolution.pauseAt node pace place
      ⟨place, hash, paused.shift⟩ ::
        launchesFrom node pace (place + 1) (paused.start node place hash) rest

/-- The launches of a resolution, in their order. -/
def launches (node : Node σ υ) (pace : Pace) (shift : Shift σ υ) (hashes : List String) :
    List (Launch σ υ) :=
  launchesFrom node pace 0 { shift } hashes

/-- The launches of a resolution that ask for their transactions. -/
def requests (node : Node σ υ) (pace : Pace) (shift : Shift σ υ) (hashes : List String) :
    List (Launch σ υ) :=
  (launches node pace shift hashes).filter Launch.asks

theorem perm_enqueue (flight : Flight) (flights : List Flight) :
    enqueue flight flights ~ flight :: flights := by
  induction flights with
  | nil => exact .rfl
  | cons other rest ih =>
      unfold enqueue
      split
      · exact .rfl
      · exact (ih.cons other).trans (.swap flight other rest)

/-- Every launch is reached by moves. -/
theorem moves_launchesFrom (node : Node σ υ) (pace : Pace) (hashes : List String) :
    ∀ (place : Nat) (resolution : Resolution σ υ), Timely resolution →
      ∀ launch ∈ launchesFrom node pace place resolution hashes,
        Shift.Moves node resolution.shift launch.moment := by
  induction hashes with
  | nil => exact fun _ _ _ launch hlaunch => absurd hlaunch List.not_mem_nil
  | cons hash rest ih =>
      intro place resolution htimely launch hlaunch
      obtain ⟨_, hpause, hpaused⟩ := onward_pauseAt node pace htimely place
      rcases List.mem_cons.mp hlaunch with rfl | hlaunch
      · exact hpause.moves
      · obtain ⟨_, hstart, hstarted, -⟩ := onward_start node hpaused place hash
        exact (hpause.moves.trans hstart.moves).trans (ih (place + 1) _ hstarted launch hlaunch)

theorem moves_launches {node : Node σ υ} {pace : Pace} {shift : Shift σ υ} {hashes : List String}
    {launch : Launch σ υ} (h : launch ∈ launches node pace shift hashes) :
    Shift.Moves node shift launch.moment :=
  moves_launchesFrom node pace hashes 0 { shift } ⟨List.Pairwise.nil, by simp⟩ launch h

/-! ## Tallies -/

/-- What was observed of some part of a resolution: what was launched in it, and that the requests
on its hands, before it or from it, are those that are over and those that are waited for after
it. -/
structure Tally (node : Node σ υ) (before after : Resolution σ υ) (events : List Event)
    (launched : List (Launch σ υ)) : Prop where
  history : after.shift.history = events ++ before.shift.history
  started : events.reverse.filter Event.isLaunch = launched.flatMap Launch.events
  /-- at the moment of a launch all earlier events have been observed, and then those of the
  launch -/
  moments : ∀ launch ∈ launched,
    launch.events.reverse ++ launch.moment.history <:+ after.shift.history
  flights : (events.filterMap Event.flight? ++ after.flights).Perm
    (before.flights ++ (launched.filter Launch.asks).map (Launch.flight node))

namespace Tally

variable {node : Node σ υ}

theorem refl (resolution : Resolution σ υ) : Tally node resolution resolution [] [] where
  history := rfl
  started := rfl
  moments := by simp
  flights := by simp

theorem trans {before middle after : Resolution σ υ} {early late : List Event}
    {first last : List (Launch σ υ)} (begun : Tally node before middle early first)
    (ended : Tally node middle after late last) :
    Tally node before after (late ++ early) (first ++ last) where
  history := by rw [ended.history, begun.history, List.append_assoc]
  started := by
    rw [List.reverse_append, List.filter_append, begun.started, ended.started, List.flatMap_append]
  moments launch h := by
    rcases List.mem_append.mp h with h | h
    · rw [ended.history]
      exact (begun.moments launch h).trans (List.suffix_append late _)
    · exact ended.moments launch h
  flights := by
    rw [List.filterMap_append, List.filter_append, List.map_append]
    calc late.filterMap Event.flight? ++ early.filterMap Event.flight? ++ after.flights
      _ ~ early.filterMap Event.flight? ++ (late.filterMap Event.flight? ++ after.flights) := by
          rw [← List.append_assoc]
          exact List.perm_append_comm.append_right _
      _ ~ early.filterMap Event.flight? ++
            (middle.flights ++ (last.filter Launch.asks).map (Launch.flight node)) :=
          ended.flights.append_left _
      _ ~ before.flights ++ (first.filter Launch.asks).map (Launch.flight node) ++
            (last.filter Launch.asks).map (Launch.flight node) := by
          rw [← List.append_assoc]
          exact begun.flights.append_right _
      _ = before.flights ++ ((first.filter Launch.asks).map (Launch.flight node) ++
            (last.filter Launch.asks).map (Launch.flight node)) := List.append_assoc ..

/-! ## Landing -/

theorem passUntil (node : Node σ υ) (time : Nat) (resolution : Resolution σ υ) :
    ∃ events, Tally node resolution
      { resolution with shift := resolution.shift.passUntil node time } events [] := by
  obtain ⟨records, hrecords⟩ := Shift.passUntil_history node time resolution.shift
  refine ⟨records.map Event.recorded, hrecords, ?_, by simp, ?_⟩
  · rw [List.filter_reverse, Event.filter_isLaunch_records]
    rfl
  · rw [Event.filterMap_recorded fun _ => rfl]
    simp

/-- What lands is over at this moment, whatever else is in flight. -/
theorem land (node : Node σ υ) (resolution : Resolution σ υ) (hash : String)
    (flights : List Flight) :
    ∃ events, Tally node
      { resolution with flights := ⟨hash, resolution.shift.time⟩ :: flights }
      { resolution.land node hash with flights } events [] := by
  obtain ⟨answer, hland, -, -⟩ := onward_land node resolution hash
  refine ⟨_, hland.history, rfl, by simp, ?_⟩
  show [⟨hash, resolution.shift.time⟩] ++ flights ~ ⟨hash, resolution.shift.time⟩ :: flights ++ []
  rw [List.append_nil]
  exact .rfl

/-- A flight that is awaited is over when it is due. -/
theorem await (node : Node σ υ) (resolution : Resolution σ υ) (flight : Flight)
    (rest : List Flight) :
    ∃ events, Tally node { resolution with flights := flight :: rest }
      { resolution.await node flight with flights := rest } events [] := by
  obtain ⟨waiting, hwait⟩ := passUntil node flight.due { resolution with flights := flight :: rest }
  obtain ⟨landing, hland⟩ := land node
    { resolution with shift := resolution.shift.passUntil node flight.due } flight.hash rest
  exact ⟨landing ++ waiting, hwait.trans hland⟩

theorem landUntil (node : Node σ υ) (time : Nat) (flights : List Flight) :
    ∀ resolution : Resolution σ υ, ∃ events,
      Tally node { resolution with flights } (landUntil node time resolution flights)
        events [] := by
  induction flights with
  | nil => exact fun resolution => ⟨[], refl _⟩
  | cons flight rest ih =>
      intro resolution
      unfold Resolution.landUntil
      split
      · obtain ⟨waiting, hawait⟩ := await node resolution flight rest
        obtain ⟨landing, hland⟩ := ih (resolution.await node flight)
        exact ⟨landing ++ waiting, hawait.trans hland⟩
      · exact ⟨[], refl _⟩

theorem reach (node : Node σ υ) (time : Nat) (resolution : Resolution σ υ) :
    ∃ events, Tally node resolution (resolution.reach node time) events [] := by
  obtain ⟨landing, hland⟩ := landUntil node time resolution.flights resolution
  obtain ⟨waiting, hwait⟩ :=
    passUntil node time (Resolution.landUntil node time resolution resolution.flights)
  exact ⟨waiting ++ landing, hland.trans hwait⟩

theorem pauseAt (node : Node σ υ) (pace : Pace) (resolution : Resolution σ υ) (place : Nat) :
    ∃ events, Tally node resolution (resolution.pauseAt node pace place) events [] := by
  unfold Resolution.pauseAt
  split
  · exact reach node _ resolution
  · exact ⟨[], refl resolution⟩

theorem awaitAll (node : Node σ υ) (flights : List Flight) :
    ∀ resolution : Resolution σ υ, ∃ events, Tally node { resolution with flights }
      { flights.foldl (Resolution.await node) resolution with flights := [] } events [] := by
  induction flights with
  | nil => exact fun resolution => ⟨[], refl _⟩
  | cons flight rest ih =>
      intro resolution
      obtain ⟨waiting, hawait⟩ := await node resolution flight rest
      obtain ⟨landing, hland⟩ := ih (resolution.await node flight)
      exact ⟨landing ++ waiting, hawait.trans hland⟩

/-! ## Starting -/

theorem start_of_cached {resolution : Resolution σ υ} (place : Nat) {hash : String}
    (h : resolution.shift.cache.transactions.contains hash = true) :
    Tally node resolution (resolution.start node place hash)
      [.resolving resolution.shift.time place hash] [⟨place, hash, resolution.shift⟩] := by
  have hasks : (⟨place, hash, resolution.shift⟩ : Launch σ υ).asks = false := by
    simp [Launch.asks, h]
  rw [Resolution.start_of_cached node place h]
  refine ⟨rfl, ?_, ?_, ?_⟩
  · simp [Launch.events, hasks, Event.isLaunch]
  · simp [Launch.events, hasks, Shift.observe]
  · show resolution.flights ~ _
    simp [hasks]

theorem posed (node : Node σ υ) {resolution : Resolution σ υ} (place : Nat) {hash : String}
    (h : ¬ resolution.shift.cache.transactions.contains hash = true) :
    Tally node resolution
      { resolution.posed place hash with
        flights := (⟨place, hash, resolution.shift⟩ : Launch σ υ).flight node ::
          resolution.flights }
      [.asked resolution.shift.time (.transaction hash),
        .resolving resolution.shift.time place hash] [⟨place, hash, resolution.shift⟩] := by
  have hasks : (⟨place, hash, resolution.shift⟩ : Launch σ υ).asks = true := by
    simp [Launch.asks, h]
  refine ⟨rfl, ?_, ?_, ?_⟩
  · simp [Launch.events, hasks, Event.isLaunch]
  · simp [Launch.events, hasks, Resolution.posed, Shift.observe]
  · show _ :: resolution.flights ~ _
    simpa [hasks] using (List.perm_append_singleton _ _).symm

theorem start (node : Node σ υ) (resolution : Resolution σ υ) (place : Nat) (hash : String) :
    ∃ events, Tally node resolution (resolution.start node place hash) events
      [⟨place, hash, resolution.shift⟩] := by
  by_cases hcached : resolution.shift.cache.transactions.contains hash = true
  · exact ⟨_, start_of_cached place hcached⟩
  · have hposed := posed node place hcached
    rw [start_of_uncached node place hcached]
    split
    · rename_i hzero
      obtain ⟨_, -, hflights, -⟩ := onward_land node (resolution.posed place hash) hash
      obtain ⟨landing, hland⟩ := land node (resolution.posed place hash) hash resolution.flights
      have hdue : (⟨place, hash, resolution.shift⟩ : Launch σ υ).flight node =
          ⟨hash, (resolution.posed place hash).shift.time⟩ := by
        simp [Launch.flight, hzero, Resolution.posed, Shift.observe]
      have hsame : { (resolution.posed place hash).land node hash with
          flights := resolution.flights } = (resolution.posed place hash).land node hash := by
        rw [show resolution.flights = (resolution.posed place hash).flights from rfl, ← hflights]
      rw [hdue] at hposed
      rw [hsame] at hland
      exact ⟨_, hposed.trans hland⟩
    · refine ⟨_, hposed.history, hposed.started, hposed.moments, ?_⟩
      exact ((perm_enqueue _ _).append_left _).trans hposed.flights

theorem startFrom (node : Node σ υ) (pace : Pace) (hashes : List String) :
    ∀ (place : Nat) (resolution : Resolution σ υ), ∃ events,
      Tally node resolution (startFrom node pace place resolution hashes) events
        (launchesFrom node pace place resolution hashes) := by
  induction hashes with
  | nil => exact fun place resolution => ⟨[], refl resolution⟩
  | cons hash rest ih =>
      intro place resolution
      obtain ⟨pausing, hpause⟩ := pauseAt node pace resolution place
      obtain ⟨starting, hstart⟩ := start node (resolution.pauseAt node pace place) place hash
      obtain ⟨later, hrest⟩ := ih (place + 1)
        ((resolution.pauseAt node pace place).start node place hash)
      exact ⟨later ++ (starting ++ pausing), (hpause.trans hstart).trans hrest⟩

/-- At the end of a resolution all requests are over, each when it was due. -/
theorem run (node : Node σ υ) (pace : Pace) (shift : Shift σ υ) (hashes : List String) :
    ∃ ended events, Tally node { shift } ended events (launches node pace shift hashes) ∧
      ended.flights = [] ∧ (run node pace shift hashes).2 = ended.shift := by
  obtain ⟨starting, hstart⟩ := startFrom node pace hashes 0 { shift }
  obtain ⟨ending, hend⟩ := awaitAll node _ (Resolution.startFrom node pace 0 { shift } hashes)
  have htally := hstart.trans hend
  rw [List.append_nil] at htally
  exact ⟨_, _, htally, rfl, congrArg Prod.snd (run_eq node pace shift hashes)⟩

end Tally

/-! ## Times -/

theorem land_time (node : Node σ υ) (resolution : Resolution σ υ) (hash : String) :
    (resolution.land node hash).shift.time = resolution.shift.time := by
  obtain ⟨_, -, -, htime⟩ := onward_land node resolution hash
  exact htime

theorem await_time (node : Node σ υ) (resolution : Resolution σ υ) (flight : Flight) :
    (resolution.await node flight).shift.time = flight.due :=
  land_time node _ flight.hash

theorem start_time (node : Node σ υ) (resolution : Resolution σ υ) (place : Nat) (hash : String) :
    (resolution.start node place hash).shift.time = resolution.shift.time := by
  by_cases hcached : resolution.shift.cache.transactions.contains hash = true
  · rw [start_of_cached node place hcached]
    rfl
  · rw [start_of_uncached node place hcached]
    split
    · exact land_time node _ hash
    · rfl

/-- A pause takes the batch delay before the first place of a batch but the first one, and no time
otherwise. -/
theorem pauseAt_time (node : Node σ υ) (pace : Pace) (resolution : Resolution σ υ) (place : Nat) :
    (resolution.pauseAt node pace place).shift.time =
      resolution.shift.time +
        if 0 < place ∧ place % pace.batchSize = 0 then pace.batchDelay else 0 := by
  unfold pauseAt
  by_cases hfirst : 0 < place ∧ place % pace.batchSize = 0
  · by_cases hdelay : pace.batchDelay = 0
    · simp [hdelay]
    · rw [if_pos ⟨hfirst.1, hfirst.2, hdelay⟩, if_pos hfirst]
      rfl
  · rw [if_neg (fun h => hfirst ⟨h.1, h.2.1⟩), if_neg hfirst, Nat.add_zero]

/-- When the transaction at a place is started, in a resolution that begins at `begin`: as many
batch delays later as there are batches before its own. -/
def startTime (pace : Pace) (begin place : Nat) : Nat :=
  begin + place / pace.batchSize * pace.batchDelay

theorem startTime_zero (pace : Pace) (begin : Nat) : startTime pace begin 0 = begin := by
  simp [startTime]

/-- The next transaction is started a pause later. -/
theorem startTime_succ (pace : Pace) (begin place : Nat) :
    startTime pace begin (place + 1) = startTime pace begin place +
      if 0 < place + 1 ∧ (place + 1) % pace.batchSize = 0 then pace.batchDelay else 0 := by
  have hbatch : (place + 1) / pace.batchSize = place / pace.batchSize +
      if pace.batchSize ∣ place + 1 then 1 else 0 := Nat.succ_div
  simp only [startTime, hbatch, Nat.dvd_iff_mod_eq_zero, Nat.succ_pos, true_and]
  split
  · rw [Nat.succ_mul, Nat.add_assoc]
  · rfl

/-- The resolution has come as far as to the transaction at a place. -/
def UpTo (node : Node σ υ) (pace : Pace) (begin place : Nat) (resolution : Resolution σ υ) :
    Prop :=
  (resolution.pauseAt node pace place).shift.time = startTime pace begin place

theorem upTo_begin (node : Node σ υ) (pace : Pace) (shift : Shift σ υ) :
    UpTo node pace shift.time 0 { shift } := by
  rw [UpTo, pauseAt_time, startTime_zero]
  rfl

theorem UpTo.start {node : Node σ υ} {pace : Pace} {begin place : Nat}
    {resolution : Resolution σ υ} (upTo : UpTo node pace begin place resolution) (hash : String) :
    UpTo node pace begin (place + 1)
      ((resolution.pauseAt node pace place).start node place hash) := by
  rw [UpTo, pauseAt_time, start_time, upTo, startTime_succ]

/-- The launches are the transactions in block order, each at its start time. -/
theorem map_launchesFrom (node : Node σ υ) (pace : Pace) (begin : Nat) (hashes : List String) :
    ∀ (place : Nat) (resolution : Resolution σ υ), UpTo node pace begin place resolution →
      (launchesFrom node pace place resolution hashes).map
          (fun launch => (launch.moment.time, launch.place, launch.hash)) =
        (hashes.zipIdx place).map fun (hash, place) =>
          (startTime pace begin place, place, hash) := by
  induction hashes with
  | nil => exact fun _ _ _ => rfl
  | cons hash rest ih =>
      intro place resolution upTo
      rw [launchesFrom, List.map_cons, List.zipIdx_cons, List.map_cons, ih _ _ (upTo.start hash)]
      exact congrArg (fun time => (time, place, hash) :: _) upTo

theorem map_launches (node : Node σ υ) (pace : Pace) (shift : Shift σ υ) (hashes : List String) :
    (launches node pace shift hashes).map
        (fun launch => (launch.moment.time, launch.place, launch.hash)) =
      hashes.zipIdx.map fun (hash, place) => (startTime pace shift.time place, place, hash) :=
  map_launchesFrom node pace shift.time hashes 0 { shift } (upTo_begin node pace shift)

theorem startFrom_time (node : Node σ υ) (pace : Pace) (begin : Nat) (rest : List String) :
    ∀ (place : Nat) (resolution : Resolution σ υ) (hash : String),
      UpTo node pace begin place resolution →
      (startFrom node pace place resolution (hash :: rest)).shift.time =
        startTime pace begin (place + rest.length) := by
  induction rest with
  | nil =>
      intro place resolution hash upTo
      exact (start_time node _ place hash).trans upTo
  | cons next rest ih =>
      intro place resolution hash upTo
      rw [startFrom, ih _ _ _ (upTo.start hash), List.length_cons]
      congr 1
      omega

/-- The flights are awaited until the last of them is due, if any is. -/
theorem awaitAll_time (node : Node σ υ) (flights : List Flight) :
    ∀ resolution : Resolution σ υ, (flights.foldl (await node) resolution).shift.time ∈
      resolution.shift.time :: flights.map (·.due) := by
  induction flights with
  | nil => exact fun resolution => List.mem_singleton_self _
  | cons flight rest ih =>
      intro resolution
      have hrest := ih (resolution.await node flight)
      rw [await_time] at hrest
      exact List.mem_cons_of_mem _ hrest

end Resolution

end BlockWatch
