import BlockWatch.Proofs.Shift.Gains

/-!
# Every question and its moment

Normative source: SPEC_FULL.md, section 4.3, step 6 of `processNextBlock`:

    skip if already present in `Cache` (`GetTx` hit); else `RPCClient.GetTransactionByHash` then
    `Cache.AddTx`

The questions that a watcher asks show in its history with their times, but not what its cache has
then.  Here the work of a watcher is gone through again (`attemptRequests`, `tickRequests`,
`loopRequests`), and each question is kept with the shift at the moment at which it is asked.  The
list is complete and in order, and everything on it is lacking from the cache at its moment
(`Asks`).

Work in between that asks for nothing is `Silent`, and composes with `Asks` on either side.
-/

set_option autoImplicit false

namespace BlockWatch

variable {σ υ : Type}

/-- A question, and the shift at the moment at which it is asked. -/
structure Request (σ υ : Type) where
  moment : Shift σ υ
  ask : Ask

/-- How a question shows among what was asked. -/
def Request.shown (request : Request σ υ) : Nat × Ask := (request.moment.time, request.ask)

namespace Shift

/-! ## What is asked -/

/-- The questions of an attempt: for the block if the cache lacks it, and then for the transactions
that it lacks when they are started. -/
def attemptRequests (node : Node σ υ) (pace : Pace) (shift : Shift σ υ) : List (Request σ υ) :=
  match shift.watcher.candidate shift.cache with
  | .ok (some number) =>
      (if shift.cache.blocks.contains number then [] else [⟨shift, .block number⟩]) ++
        match shift.obtainBlock node number with
        | (.ok block, ready) =>
            (Resolution.requests node pace ready block.transactions).map fun launch =>
              ⟨launch.moment, .transaction launch.hash⟩
        | (.error _, _) => []
  | _ => []

/-- The questions of a tick: for the head, and then those of the attempt. -/
def tickRequests (node : Node σ υ) (pace : Pace) (shift : Shift σ υ) : List (Request σ υ) :=
  ⟨shift, .head⟩ :: attemptRequests node pace
    ((shift.observeHead node).2.write (headRecords (shift.observeHead node).1))

/-- The questions of a loop: those of its ticks. -/
def loopRequests (node : Node σ υ) (pace : Pace) : Nat → Shift σ υ → List (Request σ υ)
  | 0, _ => []
  | ticks + 1, shift =>
      let rested := shift.rest node (shift.time + pace.interval)
      if rested.stopped then []
      else tickRequests node pace rested ++ loopRequests node pace ticks (rested.tick node pace)

/-- The questions of an errand. -/
def requests (node : Node σ υ) (pace : Pace) (shift : Shift σ υ) : Errand → List (Request σ υ)
  | .observe => [⟨shift, .head⟩]
  | .attempt => attemptRequests node pace shift
  | .tick => tickRequests node pace shift
  | .listen cancelled =>
      loopRequests node pace (horizon shift.agenda + 2) (shift.startLoop cancelled)

end Shift

/-! ## Attempts -/

theorem asks_of_transactions {events : List Event}
    (within : ∀ ask ∈ questions events, ∃ hash, ask = .transaction hash) :
    events.filterMap Event.ask? =
      (transactionAsks events).map fun (time, hash) => (time, .transaction hash) := by
  induction events with
  | nil => rfl
  | cons event rest ih =>
      have hrest : ∀ ask ∈ questions rest, ∃ hash, ask = .transaction hash := by
        intro ask hask
        apply within
        rw [← List.singleton_append, questions_append]
        exact List.mem_append_right _ hask
      cases event with
      | asked time ask =>
          obtain ⟨hash, rfl⟩ := within ask List.mem_cons_self
          exact congrArg (List.cons _) (ih hrest)
      | _ => exact ih hrest

/-- The questions of a resolution are those of its launches that ask. -/
theorem Resolution.asks_run (node : Node σ υ) (pace : Pace) (shift : Shift σ υ)
    (hashes : List String) :
    ∃ events, (run node pace shift hashes).2.history = events ++ shift.history ∧
      events.reverse.filterMap Event.ask? = (requests node pace shift hashes).map
        (fun launch => (launch.moment.time, .transaction launch.hash)) ∧
      ∀ launch ∈ requests node pace shift hashes,
        launch.moment.history <:+ (run node pace shift hashes).2.history := by
  obtain ⟨ended, events, htally, -, hrun⟩ := Tally.run node pace shift hashes
  obtain ⟨asked, hasked, hinquires⟩ := inquires_run node pace shift hashes
  have hhistory : (run node pace shift hashes).2.history = events ++ shift.history :=
    hrun ▸ htally.history
  have hsame : asked = events := List.append_cancel_right (hasked.symm.trans hhistory)
  refine ⟨events, hhistory, ?_, ?_⟩
  · have hwithin : ∀ ask ∈ questions events.reverse, ∃ hash, ask = .transaction hash := by
      intro ask hask
      rw [questions, List.filterMap_reverse, List.mem_reverse] at hask
      obtain ⟨hash, -, h⟩ := hinquires ask (hsame ▸ hask)
      exact ⟨hash, h⟩
    rw [asks_of_transactions hwithin, ← Event.transactionAsks_filter_isLaunch, htally.started,
      transactionAsks_launches, List.map_map]
    rfl
  · intro launch hlaunch
    rw [hrun]
    exact (List.suffix_append _ _).trans (htally.moments launch (List.mem_filter.mp hlaunch).1)

namespace Shift

/-! ## That nothing else is asked -/

/-- The questions of some work, with what holds at their moments: the cache lacks what is asked
for. -/
structure Asks (node : Node σ υ) (pace : Pace) (before after : Shift σ υ)
    (requests : List (Request σ υ)) : Prop where
  shown : ∃ events, after.history = events ++ before.history ∧
    events.reverse.filterMap Event.ask? = requests.map Request.shown
  moments : ∀ request ∈ requests, Strides node pace before request.moment ∧
    request.moment.history <:+ after.history ∧ request.moment.cache.has request.ask = false

namespace Asks

variable {node : Node σ υ} {pace : Pace}

theorem trans {before middle after : Shift σ υ} {early late : List (Request σ υ)}
    (first : Asks node pace before middle early) (strides : Strides node pace before middle)
    (last : Asks node pace middle after late) : Asks node pace before after (early ++ late) := by
  obtain ⟨earlier, hearlier, hfirst⟩ := first.shown
  obtain ⟨later, hlater, hlast⟩ := last.shown
  refine ⟨⟨later ++ earlier, by rw [hlater, hearlier, List.append_assoc], ?_⟩, ?_⟩
  · rw [List.reverse_append, List.filterMap_append, hfirst, hlast, List.map_append]
  · intro request hrequest
    rcases List.mem_append.mp hrequest with h | h
    · obtain ⟨hreached, hhistory, hlacks⟩ := first.moments request h
      exact ⟨hreached, hhistory.trans (hlater ▸ List.suffix_append later _), hlacks⟩
    · obtain ⟨hreached, hhistory, hlacks⟩ := last.moments request h
      exact ⟨strides.trans hreached, hhistory, hlacks⟩

/-- Composition with further work in which nothing is asked. -/
theorem andThen {before middle after : Shift σ υ} {requests : List (Request σ υ)}
    (asks : Asks node pace before middle requests) (events : List Event)
    (history : after.history = events ++ middle.history)
    (silent : events.filterMap Event.ask? = []) : Asks node pace before after requests := by
  obtain ⟨earlier, hearlier, hshown⟩ := asks.shown
  refine ⟨⟨events ++ earlier, by rw [history, hearlier, List.append_assoc], ?_⟩, ?_⟩
  · rw [List.reverse_append, List.filterMap_append, hshown, List.filterMap_reverse, silent]
    exact List.append_nil _
  · intro request hrequest
    obtain ⟨hreached, hmoment, hlacks⟩ := asks.moments request hrequest
    exact ⟨hreached, hmoment.trans (history ▸ List.suffix_append events _), hlacks⟩

theorem refl (shift : Shift σ υ) : Asks node pace shift shift [] :=
  ⟨⟨[], rfl, rfl⟩, fun _ hrequest => absurd hrequest List.not_mem_nil⟩

theorem write {before shift : Shift σ υ} {requests : List (Request σ υ)}
    (asks : Asks node pace before shift requests) (records : List Record) :
    Asks node pace before (shift.write records) requests := by
  rw [write_eq]
  refine asks.andThen _ rfl ?_
  rw [← List.map_reverse]
  exact Event.filterMap_recorded (fun _ => rfl) _

/-- A question for what the cache lacks. -/
theorem of_exchange {shift after : Shift σ υ} {time : Nat} {ask : Ask}
    {answer : Except Failure ask.Answer} {records : List Record}
    (lacked : shift.cache.has ask = false)
    (history : after.history =
      Event.exchange shift.time time ask answer records ++ shift.history) :
    Asks node pace shift after [⟨shift, ask⟩] := by
  refine ⟨⟨_, history, ?_⟩, ?_⟩
  · rw [List.filterMap_reverse, Event.filterMap_exchange _ fun _ => rfl]
    rfl
  · intro request hrequest
    rw [List.mem_singleton.mp hrequest, history]
    exact ⟨.refl, List.suffix_append _ _, lacked⟩

theorem observeHead (node : Node σ υ) (pace : Pace) (shift : Shift σ υ) :
    Asks node pace shift (shift.observeHead node).2 [⟨shift, .head⟩] := by
  obtain ⟨listened, records, answer, -, hhistory, htold⟩ := observeHead_told node shift
  have hasked : Asks node pace shift listened [⟨shift, .head⟩] := of_exchange rfl hhistory
  rw [htold]
  exact hasked.andThen [_] rfl rfl

theorem obtainBlock (node : Node σ υ) (pace : Pace) (shift : Shift σ υ) (number : String) :
    Asks node pace shift (shift.obtainBlock node number).2
      (if shift.cache.blocks.contains number then [] else [⟨shift, .block number⟩]) := by
  obtain ⟨events, hhistory, hobtaining⟩ := obtaining node shift number
  generalize (shift.obtainBlock node number).1 = result at hobtaining
  generalize (shift.obtainBlock node number).2 = obtained at hhistory hobtaining ⊢
  cases hobtaining with
  | cached stored =>
      rw [if_pos (Cache.contains_of_block stored)]
      exact refl shift
  | refused lacked moves time =>
      rw [if_neg (by simp [lacked])]
      exact of_exchange lacked hhistory
  | answered lacked moves time stored =>
      rw [if_neg (by simp [lacked])]
      exact of_exchange lacked hhistory

theorem resolve (node : Node σ υ) (pace : Pace) (ready : Shift σ υ) (hashes : List String) :
    Asks node pace ready (Resolution.run node pace ready hashes).2
      ((Resolution.requests node pace ready hashes).map fun launch =>
        ⟨launch.moment, .transaction launch.hash⟩) := by
  obtain ⟨events, hhistory, hasked, hmoments⟩ := Resolution.asks_run node pace ready hashes
  refine ⟨⟨events, hhistory, ?_⟩, ?_⟩
  · rw [hasked, List.map_map]
    rfl
  · intro request hrequest
    obtain ⟨launch, hlaunch, rfl⟩ := List.mem_map.mp hrequest
    obtain ⟨hlaunched, hasks⟩ := List.mem_filter.mp hlaunch
    exact ⟨(Resolution.moves_launches hlaunched).strides pace, hmoments launch hlaunch,
      by simpa [Resolution.Launch.asks, Cache.has] using hasks⟩

/-- Everything that an attempt asks for is lacking from the cache at its moment. -/
theorem attempt (node : Node σ υ) (pace : Pace) (shift : Shift σ υ) :
    Asks node pace shift (shift.attempt node pace).2 (attemptRequests node pace shift) := by
  have hadvance : Asks node pace shift (shift.advance node pace).2
      (attemptRequests node pace shift) := by
    unfold advance attemptRequests
    cases shift.watcher.candidate shift.cache with
    | error failure => exact refl shift
    | ok chosen =>
        cases chosen with
        | none => exact refl shift
        | some number =>
            have hobtain := obtainBlock node pace shift number
            obtain ⟨_, hmoves, -⟩ := moves_obtainBlock node shift number
            dsimp only
            rcases hgot : shift.obtainBlock node number with ⟨result, ready⟩
            rw [hgot] at hobtain hmoves
            cases result with
            | error failure =>
                dsimp only
                rw [List.append_nil, processBlock, hgot]
                exact hobtain
            | ok block =>
                obtain ⟨hhistory, -⟩ :=
                  processBlock_of_obtained pace hgot shift.watcher.subscriptions
                exact (hobtain.trans (hmoves.strides pace) (resolve node pace ready _)).andThen []
                  hhistory rfl
  exact hadvance.andThen [_] rfl rfl

theorem tick (node : Node σ υ) (pace : Pace) (shift : Shift σ υ) :
    Asks node pace shift (shift.tick node pace) (tickRequests node pace shift) := by
  have hlooked : Strides node pace shift (shift.observeHead node).2 := .single .observe
  exact (((observeHead node pace shift).write _).trans (hlooked.tail (.write _))
    (attempt node pace _)).write _

end Asks

/-! ## Errands -/

/-- Work in which nothing is asked. -/
def Silent (before after : Shift σ υ) : Prop :=
  ∃ events, after.history = events ++ before.history ∧ events.filterMap Event.ask? = []

namespace Silent

theorem refl (shift : Shift σ υ) : Silent shift shift := ⟨[], rfl, rfl⟩

theorem trans {before middle after : Shift σ υ} (first : Silent before middle)
    (last : Silent middle after) : Silent before after := by
  obtain ⟨early, hearly, hnone⟩ := first
  obtain ⟨late, hlate, hnone'⟩ := last
  refine ⟨late ++ early, by rw [hlate, hearly, List.append_assoc], ?_⟩
  rw [List.filterMap_append, hnone, hnone', List.append_nil]

/-- Tasks ask nothing. -/
theorem settle (shift : Shift σ υ) : Silent shift shift.settle := by
  obtain ⟨told, hsettle, htold⟩ := settle_told shift
  exact ⟨told, congrArg Shift.history hsettle,
    Event.filterMap_of_tidings (fun _ _ => rfl) (fun _ => rfl) (fun _ => rfl) htold⟩

theorem keep (node : Node σ υ) (shift : Shift σ υ) (appointment : Appointment υ) :
    Silent shift (shift.keep node appointment) := by
  obtain ⟨records, hhistory, -⟩ := act_history node shift appointment.action
  exact ⟨_, hhistory, Event.filterMap_recorded (fun _ => rfl) records⟩

theorem restUntil (node : Node σ υ) (time : Nat) (agenda : List (Appointment υ)) :
    ∀ shift : Shift σ υ, Silent shift (shift.restUntil node time agenda) := by
  induction agenda with
  | nil =>
      intro shift
      unfold Shift.restUntil
      split <;> exact refl shift
  | cons appointment rest ih =>
      intro shift
      unfold Shift.restUntil
      split
      · exact refl shift
      · split
        · exact (keep node shift appointment).trans
            (ih { shift.keep node appointment with time := max shift.time appointment.time })
        · exact refl shift

theorem rest (node : Node σ υ) (time : Nat) (shift : Shift σ υ) :
    Silent shift (shift.rest node time) := by
  unfold Shift.rest
  split
  · exact refl shift
  · exact (settle shift).trans (restUntil node time shift.settle.agenda shift.settle)

theorem keepLeft (node : Node σ υ) (shift : Shift σ υ) (appointment : Appointment υ) :
    Silent shift (Session.keepLeft node shift appointment) := by
  unfold Session.keepLeft
  split
  · exact (settle shift).trans (keep node shift.settle appointment)
  · exact keep node shift appointment

theorem keepAllLeft (node : Node σ υ) (agenda : List (Appointment υ)) :
    ∀ shift : Shift σ υ, Silent shift (agenda.foldl (Session.keepLeft node) shift) := by
  induction agenda with
  | nil => exact refl
  | cons appointment rest ih => exact fun shift => (keepLeft node shift appointment).trans (ih _)

theorem finish (node : Node σ υ) (shift : Shift σ υ) : Silent shift (Session.finish node shift) :=
  (keepAllLeft node shift.agenda { shift with agenda := [], loop := none }).trans (settle _)

end Silent

namespace Asks

variable {node : Node σ υ} {pace : Pace}

theorem andSilent {before middle after : Shift σ υ} {requests : List (Request σ υ)}
    (asks : Asks node pace before middle requests) (silent : Silent middle after) :
    Asks node pace before after requests := by
  obtain ⟨events, hhistory, hnone⟩ := silent
  exact asks.andThen events hhistory hnone

theorem loopFor (node : Node σ υ) (pace : Pace) (ticks : Nat) :
    ∀ shift : Shift σ υ, Asks node pace shift (loopFor node pace ticks shift).2
      (loopRequests node pace ticks shift) := by
  induction ticks with
  | zero => exact refl
  | succ ticks ih =>
      intro shift
      have hrest : Asks node pace shift _ [] := (refl shift).andSilent
        (Silent.rest node (shift.time + pace.interval) shift)
      have hrested :=
        (beats_rest node pace (Nat.le_add_right shift.time pace.interval)).legs.strides
      unfold Shift.loopFor loopRequests
      dsimp only
      split
      · exact hrest
      · exact (hrest.trans hrested (tick node pace _)).trans
          (hrested.trans (legs_tick node pace _).strides) (ih _)

/-- The list of questions is complete for every errand. -/
theorem run (node : Node σ υ) (pace : Pace) (shift : Shift σ υ) (errand : Errand) :
    Asks node pace shift (Session.run node pace shift errand).2
      (requests node pace shift errand) := by
  cases errand with
  | observe => exact observeHead node pace shift
  | attempt => exact attempt node pace shift
  | tick => exact tick node pace shift
  | listen cancelled =>
      have hbegun : Strides node pace shift (shift.startLoop cancelled) :=
        .single (.loop _ _ _ _)
      have hstarted : Asks node pace shift (shift.startLoop cancelled) [] :=
        (refl shift).andThen [] rfl rfl
      have hlisten : Asks node pace shift (shift.listen node pace cancelled).2
          (requests node pace shift (.listen cancelled)) :=
        hstarted.trans hbegun (loopFor node pace _ _)
      rcases hlast : shift.listen node pace cancelled with ⟨finished, last⟩
      rw [hlast] at hlisten
      cases finished with
      | true =>
          simp only [Session.run, hlast]
          exact hlisten
      | false =>
          simp only [Session.run, hlast]
          exact hlisten

end Asks

end Shift

end BlockWatch
