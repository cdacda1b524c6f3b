import BlockWatch.Node.Script
import BlockWatch.Proofs.Shift.Frame
import BlockWatch.Proofs.Shift.Launches
import Mathlib

/-!
# The schedule of an attempt

Normative source: SPEC_FULL.md, section 4.3, step 6 of `processNextBlock`:

    separated by a fixed delay (default 2s) between batch launches — a simple client-side rate
    limiter for the upstream endpoint.

Once the block of an attempt is available, its transactions are started on a schedule that nothing
disturbs: batch after batch, each a batch delay after the one before, whatever has become of those.
What is asked for follows from what the cache has at these moments, and the attempt lasts until the
last batch is started and every request is over.  A batch is therefore also the most that is asked
for within any batch delay.

`attempt_schedule` states all this (`Schedule`) for every attempt with a block.  The delay is the
one that timers keep: a longer one is cut off at `Timer.longest`, and `second_batch_early` is a run
in which it is.  The times come from `Proofs.Shift.Launches`; the rate follows from them, because
the places that are started within one delay belong to one batch.
-/

set_option autoImplicit false

open scoped List

namespace BlockWatch

variable {σ υ : Type}

/-- The transaction that was asked for, and when. -/
def Event.transactionAsked? : Event → Option (Nat × String)
  | .asked time (.transaction hash) => some (time, hash)
  | _ => none

/-- The transactions that were asked for among events, with their times, in their order. -/
def transactionAsks (events : List Event) : List (Nat × String) :=
  events.filterMap Event.transactionAsked?

theorem Event.time?_of_flight? {event : Event} {flight : Flight}
    (h : event.flight? = some flight) : event.time? = some flight.due := by
  unfold Event.flight? at h
  split at h
  · cases h
    rfl
  · cases h

theorem Event.transactionAsks_filter_isLaunch (events : List Event) :
    transactionAsks (events.filter Event.isLaunch) = transactionAsks events := by
  rw [transactionAsks, List.filterMap_filter]
  refine List.filterMap_congr fun event _ => ?_
  unfold Event.isLaunch
  split
  · rfl
  · rfl
  · rename_i hnot
    cases event with
    | asked time ask =>
        cases ask with
        | transaction hash => exact absurd rfl (hnot time hash)
        | _ => rfl
    | _ => rfl

namespace Resolution

/-! ## Batches -/

/-- Transactions of different batches are started at least a batch delay apart. -/
theorem startTime_add_le (pace : Pace) (begin : Nat) {place other : Nat}
    (h : place / pace.batchSize < other / pace.batchSize) :
    startTime pace begin place + pace.batchDelay ≤ startTime pace begin other := by
  have hdelay : (place / pace.batchSize + 1) * pace.batchDelay ≤
      other / pace.batchSize * pace.batchDelay := Nat.mul_le_mul_right _ h
  rw [Nat.succ_mul] at hdelay
  unfold startTime
  omega

theorem div_eq_of_within {pace : Pace} {begin time place other : Nat}
    (here : time ≤ startTime pace begin place ∧
      startTime pace begin place < time + pace.batchDelay)
    (there : time ≤ startTime pace begin other ∧
      startTime pace begin other < time + pace.batchDelay) :
    other / pace.batchSize = place / pace.batchSize := by
  rcases Nat.lt_trichotomy (other / pace.batchSize) (place / pace.batchSize) with h | h | h
  · have := startTime_add_le pace begin h
    omega
  · exact h
  · have := startTime_add_le pace begin h
    omega

/-- At most one batch of places is started within one batch delay. -/
theorem countP_startTime_le (pace : Pace) (begin time : Nat) {places : List Nat}
    (nodup : places.Nodup) :
    places.countP (fun place => decide (time ≤ startTime pace begin place ∧
      startTime pace begin place < time + pace.batchDelay)) ≤ pace.batchSize := by
  rw [List.countP_eq_length_filter]
  cases hwithin : places.filter _ with
  | nil => exact Nat.zero_le _
  | cons first rest =>
      have hmem : ∀ place ∈ first :: rest, time ≤ startTime pace begin place ∧
          startTime pace begin place < time + pace.batchDelay := by
        intro place hplace
        rw [← hwithin] at hplace
        exact of_decide_eq_true (List.mem_filter.mp hplace).2
      have hbatch : first :: rest ⊆
          List.range' (first / pace.batchSize * pace.batchSize) pace.batchSize := by
        intro place hplace
        have hsame := div_eq_of_within (hmem first List.mem_cons_self) (hmem place hplace)
        have hdecompose := Nat.div_add_mod' place pace.batchSize
        have hmod := Nat.mod_lt place pace.batchSize_pos
        rw [hsame] at hdecompose
        rw [List.mem_range'_1]
        omega
      have hnodup : (first :: rest).Nodup := hwithin ▸ nodup.filter _
      calc (first :: rest).length
        _ ≤ (List.range' (first / pace.batchSize * pace.batchSize) pace.batchSize).length :=
            (hnodup.subperm hbatch).length_le
        _ = pace.batchSize := List.length_range'

/-! ## Requests -/

theorem transactionAsks_launches (launched : List (Launch σ υ)) :
    transactionAsks (launched.flatMap Launch.events) =
      (launched.filter Launch.asks).map (fun launch => (launch.moment.time, launch.hash)) := by
  induction launched with
  | nil => rfl
  | cons launch rest ih =>
      rw [transactionAsks] at ih ⊢
      rw [List.flatMap_cons, List.filterMap_append, ih]
      cases hasks : launch.asks with
      | false =>
          rw [List.filter_cons_of_neg (by simp [hasks])]
          simp [Launch.events, hasks, Event.transactionAsked?]
      | true =>
          rw [List.filter_cons_of_pos hasks, List.map_cons]
          simp only [Launch.events, hasks, if_true]
          rfl

theorem time_launch {node : Node σ υ} {pace : Pace} {shift : Shift σ υ} {hashes : List String}
    {launch : Launch σ υ} (h : launch ∈ launches node pace shift hashes) :
    launch.moment.time = startTime pace shift.time launch.place := by
  have hmem : (launch.moment.time, launch.place, launch.hash) ∈
      (launches node pace shift hashes).map fun launch =>
        (launch.moment.time, launch.place, launch.hash) := List.mem_map_of_mem h
  rw [map_launches node pace shift hashes] at hmem
  obtain ⟨⟨hash, place⟩, -, heq⟩ := List.mem_map.mp hmem
  obtain ⟨htime, hplace⟩ := Prod.mk.inj heq
  rw [← htime, ← (Prod.mk.inj hplace).1]

theorem places_launches (node : Node σ υ) (pace : Pace) (shift : Shift σ υ)
    (hashes : List String) :
    (launches node pace shift hashes).map (·.place) = List.range hashes.length := by
  have hplaces := congrArg (List.map fun started => started.2.1)
    (map_launches node pace shift hashes)
  rw [List.map_map, List.map_map] at hplaces
  refine Eq.trans hplaces ?_
  show hashes.zipIdx.map Prod.snd = _
  rw [List.zipIdx_map_snd, List.range_eq_range']

theorem hashes_launches (node : Node σ υ) (pace : Pace) (shift : Shift σ υ)
    (hashes : List String) : (launches node pace shift hashes).map (·.hash) = hashes := by
  have hlaunched := congrArg (List.map fun started => started.2.2)
    (map_launches node pace shift hashes)
  rw [List.map_map, List.map_map] at hlaunched
  refine Eq.trans hlaunched ?_
  show hashes.zipIdx.map Prod.fst = _
  rw [List.zipIdx_map_fst]

/-- At most one batch is asked for within one batch delay. -/
theorem countP_requests_le (node : Node σ υ) (pace : Pace) (shift : Shift σ υ)
    (hashes : List String) (time : Nat) :
    ((requests node pace shift hashes).map (·.moment.time)).countP
        (fun asked => decide (time ≤ asked ∧ asked < time + pace.batchDelay)) ≤
      pace.batchSize := by
  have htimes : (requests node pace shift hashes).map (·.moment.time) =
      ((requests node pace shift hashes).map (·.place)).map (startTime pace shift.time) := by
    rw [List.map_map]
    exact List.map_congr_left fun launch hlaunch => time_launch (List.mem_filter.mp hlaunch).1
  have hnodup : ((requests node pace shift hashes).map (·.place)).Nodup := by
    have hplaces : ((launches node pace shift hashes).map (·.place)).Nodup := by
      rw [places_launches]
      exact List.nodup_range
    exact hplaces.sublist (List.filter_sublist.map _)
  rw [htimes, List.countP_map]
  exact countP_startTime_le pace shift.time time hnodup

/-- A resolution ends when its last batch is started and every request is over. -/
theorem run_time (node : Node σ υ) (pace : Pace) (shift : Shift σ υ) (hashes : List String) :
    (startTime pace shift.time (hashes.length - 1) ::
        (requests node pace shift hashes).map (fun launch => (launch.flight node).due)).max? =
      some (run node pace shift hashes).2.time := by
  rw [List.max?_eq_some_iff]
  obtain ⟨starting, hstart⟩ := Tally.startFrom node pace hashes 0 { shift }
  have hlast : (startFrom node pace 0 { shift } hashes).shift.time =
      startTime pace shift.time (hashes.length - 1) := by
    cases hashes with
    | nil => exact (startTime_zero pace shift.time).symm
    | cons hash rest =>
        rw [startFrom_time node pace shift.time rest 0 { shift } hash (upTo_begin node pace shift),
          List.length_cons, Nat.add_sub_cancel, Nat.zero_add]
  constructor
  · have hend := awaitAll_time node (startFrom node pace 0 { shift } hashes).flights
      (startFrom node pace 0 { shift } hashes)
    rw [hlast] at hend
    rw [run_eq]
    refine List.mem_cons.mpr ((List.mem_cons.mp hend).imp id fun hdue => ?_)
    obtain ⟨flight, hflight, hdue⟩ := List.mem_map.mp hdue
    have hrequest := hstart.flights.subset (List.mem_append_right _ hflight)
    obtain ⟨launch, hlaunch, rfl⟩ := List.mem_map.mp hrequest
    exact List.mem_map.mpr ⟨launch, hlaunch, hdue⟩
  · intro time htime
    rcases List.mem_cons.mp htime with rfl | htime
    · -- what is waited for in the end is not overdue when the last batch is started
      obtain ⟨_, _, htimely, -⟩ :=
        onward_startFrom node pace hashes 0 { shift } ⟨List.Pairwise.nil, by simp⟩
      obtain ⟨_, honward⟩ := onward_awaitAll node _ _ htimely
      obtain ⟨_, _, haccount⟩ := Shift.Account.of_moves honward.moves
      rw [run_eq]
      exact hlast ▸ haccount.later
    · obtain ⟨launch, hlaunch, rfl⟩ := List.mem_map.mp htime
      obtain ⟨ended, events, htally, hflights, hrun⟩ := Tally.run node pace shift hashes
      obtain ⟨_, hmoves, -⟩ := moves_run node pace shift hashes
      rw [hrun] at hmoves ⊢
      obtain ⟨_, haccount⟩ := Shift.Account.of_history hmoves htally.history
      have hover : launch.flight node ∈ events.filterMap Event.flight? := by
        have hperm := htally.flights
        rw [hflights, List.append_nil] at hperm
        exact hperm.mem_iff.mpr (List.mem_map_of_mem hlaunch)
      obtain ⟨event, hevent, hflight⟩ := List.mem_filterMap.mp hover
      exact (haccount.times _ (List.mem_filterMap.mpr
        ⟨event, hevent, Event.time?_of_flight? hflight⟩)).2

end Resolution

namespace Shift

/-! ## Schedules -/

/-- How the transactions of a block were resolved, from the shift in which the block was ready to a
shift after that, among events, newest first. -/
structure Schedule (node : Node σ υ) (pace : Pace) (ready after : Shift σ υ)
    (hashes : List String) (events : List Event) : Prop where
  /-- every transaction is started, in block order, each with its batch -/
  order : (Resolution.launches node pace ready hashes).map
      (fun launch => (launch.moment.time, launch.place, launch.hash)) =
    hashes.zipIdx.map fun (hash, place) =>
      (ready.time + place / pace.batchSize * pace.batchDelay, place, hash)
  /-- it is started once, and asked for at the same time if the cache lacks it -/
  started : events.reverse.filter Event.isLaunch =
    (Resolution.launches node pace ready hashes).flatMap Resolution.Launch.events
  /-- what was observed before the moment of a launch was observed before it was started -/
  moments : ∀ launch ∈ Resolution.launches node pace ready hashes,
    launch.events.reverse ++ launch.moment.history <:+ after.history
  /-- every request is over once, when it was due -/
  answered : events.filterMap Event.flight? ~
    (Resolution.requests node pace ready hashes).map (Resolution.Launch.flight node)
  /-- all is over with the last batch and the last request -/
  finish : ((ready.time + (hashes.length - 1) / pace.batchSize * pace.batchDelay) ::
      (Resolution.requests node pace ready hashes).map
        (fun launch => (launch.flight node).due)).max? = some after.time
  /-- within one batch delay no more than a batch is asked for -/
  rate : ∀ time, (transactionAsks events).countP
      (fun (asked, _) => decide (time ≤ asked ∧ asked < time + pace.batchDelay)) ≤ pace.batchSize

theorem Schedule.of_tally {node : Node σ υ} {pace : Pace} {ready after : Shift σ υ}
    {hashes : List String} {events : List Event}
    (started : events.reverse.filter Event.isLaunch =
      (Resolution.launches node pace ready hashes).flatMap Resolution.Launch.events)
    (moments : ∀ launch ∈ Resolution.launches node pace ready hashes,
      launch.events.reverse ++ launch.moment.history <:+ after.history)
    (answered : events.filterMap Event.flight? ~
      (Resolution.requests node pace ready hashes).map (Resolution.Launch.flight node))
    (time : after.time = (Resolution.run node pace ready hashes).2.time) :
    Schedule node pace ready after hashes events where
  order := Resolution.map_launches node pace ready hashes
  started := started
  moments := moments
  answered := answered
  finish := time ▸ Resolution.run_time node pace ready hashes
  rate t := by
    have hasks : (transactionAsks events).reverse =
        (Resolution.requests node pace ready hashes).map
          (fun launch => (launch.moment.time, launch.hash)) := by
      rw [transactionAsks, ← List.filterMap_reverse, ← transactionAsks,
        ← Event.transactionAsks_filter_isLaunch, started, Resolution.transactionAsks_launches]
      rfl
    have hrate := Resolution.countP_requests_le node pace ready hashes t
    rw [List.countP_map] at hrate
    rw [← List.countP_reverse, hasks, List.countP_map]
    exact hrate

/-! ## Attempts -/

/-- The block of an attempt is ready: at once when the cache has it, and else when the node has
answered with it. -/
structure Readied (node : Node σ υ) (shift ready : Shift σ υ) (number : String) (block : Block) :
    Prop where
  obtained : shift.obtainBlock node number = (.ok block, ready)
  cached : shift.cache.blocks.contains number = true → ready = shift
  asked : shift.cache.blocks.contains number = false →
    ready.time = shift.time + node.latency shift.node (.block number) ∧
      ∃ (given : Block) (records : List Record),
        ready.history = .answered ready.time (.block number) (.ok given) ::
          (records.map Event.recorded ++ .asked shift.time (.block number) :: shift.history)

theorem readied_of_obtained {node : Node σ υ} {shift ready : Shift σ υ} {number : String}
    {block : Block} (obtained : shift.obtainBlock node number = (.ok block, ready)) :
    Readied node shift ready number block := by
  obtain ⟨events, hhistory, hobtaining⟩ := obtaining node shift number
  rw [obtained] at hhistory hobtaining
  cases hobtaining with
  | cached stored =>
      refine ⟨obtained, fun _ => rfl, fun hlacked => ?_⟩
      rw [Cache.contains_of_block stored] at hlacked
      cases hlacked
  | @answered given _ records _ lacked moves time stored =>
      refine ⟨obtained, fun hcached => ?_, fun _ => ⟨time, given, records, ?_⟩⟩
      · rw [lacked] at hcached
        cases hcached
      · exact hhistory.trans (by simp [Event.exchange])

theorem processBlock_of_obtained {node : Node σ υ} (pace : Pace) {shift ready : Shift σ υ}
    {number : String} {block : Block}
    (obtained : shift.obtainBlock node number = (.ok block, ready)) (subscribers : List String) :
    (shift.processBlock node pace number subscribers).2.history =
        (Resolution.run node pace ready block.transactions).2.history ∧
      (shift.processBlock node pace number subscribers).2.time =
        (Resolution.run node pace ready block.transactions).2.time := by
  have hwork := blockWork node pace shift number subscribers
  generalize (shift.processBlock node pace number subscribers).1 = result at hwork
  generalize (shift.processBlock node pace number subscribers).2 = after at hwork ⊢
  cases hwork with
  | withheld got => cases got.symm.trans obtained
  | setback got ran =>
      cases got.symm.trans obtained
      exact ran ▸ ⟨rfl, rfl⟩
  | unmarked got ran marked =>
      cases got.symm.trans obtained
      exact ran ▸ ⟨rfl, rfl⟩
  | processed got ran marked =>
      cases got.symm.trans obtained
      exact ran ▸ ⟨rfl, rfl⟩

end Shift

/-- An event that has no part in a schedule. -/
def Event.IsAside (event : Event) : Prop := event.isLaunch = false ∧ event.flight? = none

theorem Event.filter_isLaunch_of_aside {events : List Event}
    (aside : ∀ event ∈ events, event.IsAside) : events.filter Event.isLaunch = [] := by
  rw [List.filter_eq_nil_iff]
  intro event hevent
  rw [(aside event hevent).1]
  exact Bool.false_ne_true

theorem Event.filterMap_flight?_of_aside {events : List Event}
    (aside : ∀ event ∈ events, event.IsAside) : events.filterMap Event.flight? = [] :=
  List.filterMap_eq_nil_iff.mpr fun event hevent => (aside event hevent).2

namespace Shift

theorem Readied.history {node : Node σ υ} {shift ready : Shift σ υ} {number : String}
    {block : Block} (readied : Readied node shift ready number block) :
    ∃ events, ready.history = events ++ shift.history ∧ ∀ event ∈ events, event.IsAside := by
  cases hcached : shift.cache.blocks.contains number with
  | true =>
      rw [readied.cached hcached]
      exact ⟨[], rfl, fun _ hevent => absurd hevent List.not_mem_nil⟩
  | false =>
      obtain ⟨-, given, records, hhistory⟩ := readied.asked hcached
      refine ⟨Event.exchange shift.time ready.time (.block number) (.ok given) records,
        by simp [hhistory, Event.exchange], ?_⟩
      intro event hevent
      rcases List.mem_cons.mp hevent with rfl | hevent
      · exact ⟨rfl, rfl⟩
      · rcases List.mem_append.mp hevent with hevent | hevent
        · obtain ⟨record, -, rfl⟩ := List.mem_map.mp hevent
          exact ⟨rfl, rfl⟩
        · rw [List.mem_singleton.mp hevent]
          exact ⟨rfl, rfl⟩

/-- The schedule of an attempt: of the transactions of the block that is chosen, once it is ready,
each is started once, in block order and with its batch, whatever becomes of the others; it is asked
for exactly when the cache lacks it at that moment; the attempt ends with the last batch and the
last request; and within one batch delay no more than a batch is asked for. -/
theorem attempt_schedule (node : Node σ υ) (settings : Settings) {shift ready : Shift σ υ}
    {number : String} {block : Block}
    (candidate : shift.watcher.candidate shift.cache = .ok (some number))
    (obtained : shift.obtainBlock node number = (.ok block, ready)) :
    Readied node shift ready number block ∧
      (∃ events, (shift.attempt node settings.pace).2.history = events ++ shift.history ∧
        Schedule node settings.pace ready (shift.attempt node settings.pace).2 block.transactions
          events) ∧
      settings.pace.batchSize = settings.normalized.batchSize ∧
      settings.pace.batchDelay = Timer.span settings.normalized.batchDelay := by
  have hreadied := readied_of_obtained obtained
  refine ⟨hreadied, ?_, rfl, rfl⟩
  obtain ⟨early, hearly, hbefore⟩ := hreadied.history
  obtain ⟨ended, events, htally, hflights, hrun⟩ :=
    Resolution.Tally.run node settings.pace ready block.transactions
  obtain ⟨hhistory, htime⟩ :=
    processBlock_of_obtained settings.pace obtained shift.watcher.subscriptions
  have hadvance : shift.advance node settings.pace =
      shift.processBlock node settings.pace number shift.watcher.subscriptions := by
    simp only [advance, candidate]
  rw [← hadvance] at hhistory htime
  rw [hrun] at hhistory
  -- what is observed after the resolution
  let late : List Event := [.attempted shift.snapshot
    (shift.attempt node settings.pace).2.snapshot (shift.attempt node settings.pace).1]
  have hafter : ∀ event ∈ late, event.IsAside := by
    intro event hevent
    rw [List.mem_singleton.mp hevent]
    exact ⟨rfl, rfl⟩
  have hended : (shift.attempt node settings.pace).2.history = late ++ ended.shift.history :=
    congrArg (List.cons _) hhistory
  refine ⟨late ++ (events ++ early), ?_, .of_tally ?_ ?_ ?_ htime⟩
  · rw [hended, htally.history, hearly, List.append_assoc, List.append_assoc]
  · rw [List.reverse_append, List.reverse_append, List.filter_append, List.filter_append,
      htally.started, List.filter_reverse, List.filter_reverse,
      Event.filter_isLaunch_of_aside hafter, Event.filter_isLaunch_of_aside hbefore]
    exact List.append_nil _
  · intro launch hlaunch
    rw [hended]
    exact (htally.moments launch hlaunch).trans (List.suffix_append late _)
  · have hperm := htally.flights
    rw [hflights, List.append_nil] at hperm
    rw [List.filterMap_append, List.filterMap_append, Event.filterMap_flight?_of_aside hafter,
      Event.filterMap_flight?_of_aside hbefore, List.append_nil]
    exact hperm

/-- A block with a transaction that is resolved three times and one that fails. -/
def crowdedBlock : Block := ⟨"0xb", ["0x1", "0x2", "0x3", "0x1", "0x1"]⟩

/-- A watcher that has seen the head of a node which takes its time. -/
def onLeisurelyNode : Shift Script Script.Update where
  node :=
    { blocks := ⟨[("0x5", crowdedBlock)]⟩
      transactions := ⟨[("0x1", ⟨"0x1", "0xa", none, []⟩), ("0x3", ⟨"0x3", "0xa", none, []⟩)]⟩
      failingTransactions := ["0x2"]
      latency := ⟨[("0x5", 30), ("0x1", 120)]⟩ }
  cache := .empty
  watcher := { latest := some "0x5" }

/-- A watcher that resolves two transactions at the same time. -/
def inPairs : Settings := { batchSize := 2, batchDelay := 100 }

/-- The transaction that comes again is asked for twice and found the third time; that another one
fails is no reason to stop. -/
theorem attempt_schedule_inPairs :
    let ready := (onLeisurelyNode.obtainBlock Script.node "0x5").2
    let after := (onLeisurelyNode.attempt Script.node inPairs.pace).2
    onLeisurelyNode.watcher.candidate onLeisurelyNode.cache = .ok (some "0x5") ∧
      Readied Script.node onLeisurelyNode ready "0x5" crowdedBlock ∧
      (∃ events, after.history = events ++ onLeisurelyNode.history ∧
        Schedule Script.node inPairs.pace ready after crowdedBlock.transactions events) ∧
      (transactionAsks after.history.reverse, after.time) =
        ([(30, "0x1"), (30, "0x2"), (130, "0x3"), (130, "0x1")], 250) := by
  have hended : (transactionAsks
        (onLeisurelyNode.attempt Script.node inPairs.pace).2.history.reverse,
      (onLeisurelyNode.attempt Script.node inPairs.pace).2.time) =
        ([(30, "0x1"), (30, "0x2"), (130, "0x3"), (130, "0x1")], 250) := by
    cbv
  intro ready after
  have hcandidate : onLeisurelyNode.watcher.candidate onLeisurelyNode.cache =
      .ok (some "0x5") := by cbv
  have hobtained : onLeisurelyNode.obtainBlock Script.node "0x5" = (.ok crowdedBlock, ready) := by
    rfl
  obtain ⟨hreadied, hschedule, -⟩ :=
    attempt_schedule Script.node inPairs hcandidate hobtained
  exact ⟨hcandidate, hreadied, hschedule, hended⟩

/-- A watcher that is to wait between transactions for longer than any timer runs. -/
def inNoHurry : Settings := { batchSize := 1, batchDelay := 2000000000000 }

/-- The second transaction is started when the timer goes off. -/
theorem second_batch_early :
    inNoHurry.normalized.batchDelay = 2000000000000 ∧
      transactionAsks
          (onLeisurelyNode.attempt Script.node inNoHurry.pace).2.history.reverse =
        [(30, "0x1"), (946080000030, "0x2"), (1892160000030, "0x3")] :=
  ⟨rfl, by cbv⟩

end Shift

end BlockWatch
