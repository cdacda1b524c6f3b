import BlockWatch.Proofs.Shift.Attempt

/-!
# What is asked in an attempt

Normative source: SPEC_FULL.md, section 4.3, steps 5 and 6 of `processNextBlock`:

    return from `Cache.GetBlock` if present; else `RPCClient.GetBlockByNumber`
    skip if already present in `Cache` (`GetTx` hit); else `RPCClient.GetTransactionByHash`

The work on a block asks for the block exactly if the cache lacks it, for transactions of the block,
and for nothing else (`Inquiry`).  That it asks for no other transaction is carried through a
resolution by `Inquires`: every flight is that of one of the transactions, so whatever lands is too.
When it asks for which transaction is the subject of `Proofs.Shift.Launches`.
-/

set_option autoImplicit false

namespace BlockWatch

variable {σ υ : Type}

/-! ## Questions -/

/-- The question that an event is about: it is asked, or the time for it is over. -/
def Event.question? : Event → Option Ask
  | .asked _ ask => some ask
  | .answered _ ask _ => some ask
  | _ => none

/-- The questions among events. -/
def questions (events : List Event) : List Ask := events.filterMap Event.question?

theorem questions_append (early late : List Event) :
    questions (early ++ late) = questions early ++ questions late := List.filterMap_append

theorem questions_records (records : List Record) : questions (records.map Event.recorded) = [] :=
  Event.filterMap_recorded (fun _ => rfl) records

namespace Resolution

/-- Work in which nothing was asked for but transactions with some hashes. -/
def Inquires (hashes : List String) (before after : Shift σ υ) : Prop :=
  ∃ events, after.history = events ++ before.history ∧
    ∀ ask ∈ questions events, ∃ hash ∈ hashes, ask = .transaction hash

namespace Inquires

variable {hashes : List String}

theorem refl (shift : Shift σ υ) : Inquires hashes shift shift :=
  ⟨[], rfl, fun _ hask => absurd hask List.not_mem_nil⟩

theorem trans {before middle after : Shift σ υ} (first : Inquires hashes before middle)
    (last : Inquires hashes middle after) : Inquires hashes before after := by
  obtain ⟨early, hearly, hfirst⟩ := first
  obtain ⟨late, hlate, hlast⟩ := last
  refine ⟨late ++ early, by rw [hlate, hearly, List.append_assoc], ?_⟩
  intro ask hask
  rw [questions_append] at hask
  exact (List.mem_append.mp hask).elim (hlast ask) (hfirst ask)

theorem of_event {before after : Shift σ υ} {event : Event}
    (history : after.history = event :: before.history)
    (asks : ∀ ask, event.question? = some ask → ∃ hash ∈ hashes, ask = .transaction hash) :
    Inquires hashes before after := by
  refine ⟨[event], history, ?_⟩
  intro ask hask
  obtain ⟨other, hother, hquestion⟩ := List.mem_filterMap.mp hask
  exact asks ask (List.mem_singleton.mp hother ▸ hquestion)

theorem passUntil (node : Node σ υ) (time : Nat) (shift : Shift σ υ) :
    Inquires hashes shift (shift.passUntil node time) := by
  obtain ⟨records, hrecords⟩ := Shift.passUntil_history node time shift
  refine ⟨records.map Event.recorded, hrecords, ?_⟩
  rw [questions_records]
  exact fun _ hask => absurd hask List.not_mem_nil

theorem land (node : Node σ υ) (resolution : Resolution σ υ) {hash : String}
    (h : hash ∈ hashes) : Inquires hashes resolution.shift (resolution.land node hash).shift := by
  obtain ⟨answer, hland, -, -⟩ := onward_land node resolution hash
  exact of_event hland.history fun ask hask => ⟨hash, h, (Option.some.inj hask).symm⟩

theorem await (node : Node σ υ) (resolution : Resolution σ υ) {flight : Flight}
    (h : flight.hash ∈ hashes) :
    Inquires hashes resolution.shift (resolution.await node flight).shift :=
  (passUntil node flight.due resolution.shift).trans (land node _ h)

theorem landUntil (node : Node σ υ) (time : Nat) (flights : List Flight) :
    ∀ resolution : Resolution σ υ, (∀ flight ∈ flights, flight.hash ∈ hashes) →
      Inquires hashes resolution.shift (landUntil node time resolution flights).shift ∧
        ∀ flight ∈ (Resolution.landUntil node time resolution flights).flights,
          flight.hash ∈ hashes := by
  induction flights with
  | nil => exact fun resolution _ => ⟨refl resolution.shift, fun flight hflight => by cases hflight⟩
  | cons flight rest ih =>
      intro resolution hflights
      unfold Resolution.landUntil
      split
      · obtain ⟨hlanded, hstay⟩ := ih (resolution.await node flight)
          fun other hother => hflights other (List.mem_cons_of_mem flight hother)
        exact ⟨(await node resolution (hflights flight List.mem_cons_self)).trans hlanded, hstay⟩
      · exact ⟨refl resolution.shift, hflights⟩

theorem reach (node : Node σ υ) (time : Nat) {resolution : Resolution σ υ}
    (flights : ∀ flight ∈ resolution.flights, flight.hash ∈ hashes) :
    Inquires hashes resolution.shift (resolution.reach node time).shift ∧
      ∀ flight ∈ (resolution.reach node time).flights, flight.hash ∈ hashes := by
  obtain ⟨hlanded, hstay⟩ := landUntil node time resolution.flights resolution flights
  exact ⟨hlanded.trans (passUntil node time _), hstay⟩

theorem start (node : Node σ υ) {resolution : Resolution σ υ} (place : Nat) {hash : String}
    (flights : ∀ flight ∈ resolution.flights, flight.hash ∈ hashes) (h : hash ∈ hashes) :
    Inquires hashes resolution.shift (resolution.start node place hash).shift ∧
      ∀ flight ∈ (resolution.start node place hash).flights, flight.hash ∈ hashes := by
  by_cases hcached : resolution.shift.cache.transactions.contains hash = true
  · rw [start_of_cached node place hcached]
    exact ⟨of_event rfl (fun ask hask => by cases hask), flights⟩
  · have hstarted : Inquires hashes resolution.shift
        (resolution.shift.observe (.resolving resolution.shift.time place hash)) :=
      of_event rfl fun ask hask => by cases hask
    have hposed : Inquires hashes resolution.shift (resolution.posed place hash).shift :=
      hstarted.trans (of_event rfl fun ask hask => ⟨hash, h, (Option.some.inj hask).symm⟩)
    rw [start_of_uncached node place hcached]
    split
    · obtain ⟨_, -, hflights, -⟩ := onward_land node (resolution.posed place hash) hash
      exact ⟨hposed.trans (land node _ h), hflights ▸ flights⟩
    · refine ⟨hposed, ?_⟩
      intro flight hflight
      rcases mem_enqueue.mp hflight with rfl | hflight
      · exact h
      · exact flights flight hflight

theorem pauseAt (node : Node σ υ) (pace : Pace) {resolution : Resolution σ υ} (place : Nat)
    (flights : ∀ flight ∈ resolution.flights, flight.hash ∈ hashes) :
    Inquires hashes resolution.shift (resolution.pauseAt node pace place).shift ∧
      ∀ flight ∈ (resolution.pauseAt node pace place).flights, flight.hash ∈ hashes := by
  unfold Resolution.pauseAt
  split
  · exact reach node _ flights
  · exact ⟨refl resolution.shift, flights⟩

theorem startFrom (node : Node σ υ) (pace : Pace) (rest : List String) :
    ∀ (place : Nat) (resolution : Resolution σ υ),
      (∀ flight ∈ resolution.flights, flight.hash ∈ hashes) → (∀ hash ∈ rest, hash ∈ hashes) →
      Inquires hashes resolution.shift (startFrom node pace place resolution rest).shift ∧
        ∀ flight ∈ (Resolution.startFrom node pace place resolution rest).flights,
          flight.hash ∈ hashes := by
  induction rest with
  | nil => exact fun place resolution flights _ => ⟨refl resolution.shift, flights⟩
  | cons hash rest ih =>
      intro place resolution hflights hrest
      obtain ⟨hpause, hpaused⟩ := pauseAt node pace place hflights
      obtain ⟨hstart, hstarted⟩ := start node place hpaused (hrest hash List.mem_cons_self)
      obtain ⟨hlast, hall⟩ := ih (place + 1) _ hstarted
        fun other hother => hrest other (List.mem_cons_of_mem hash hother)
      exact ⟨(hpause.trans hstart).trans hlast, hall⟩

theorem awaitAll (node : Node σ υ) (flights : List Flight) :
    ∀ resolution : Resolution σ υ, (∀ flight ∈ flights, flight.hash ∈ hashes) →
      Inquires hashes resolution.shift
        (flights.foldl (Resolution.await node) resolution).shift := by
  induction flights with
  | nil => exact fun resolution _ => refl resolution.shift
  | cons flight rest ih =>
      intro resolution hflights
      exact (await node resolution (hflights flight List.mem_cons_self)).trans
        (ih _ fun other hother => hflights other (List.mem_cons_of_mem flight hother))

end Inquires

/-- A resolution asks only for the transactions that it resolves. -/
theorem inquires_run (node : Node σ υ) (pace : Pace) (shift : Shift σ υ) (hashes : List String) :
    Inquires hashes shift (run node pace shift hashes).2 := by
  obtain ⟨hstarted, hflights⟩ := Inquires.startFrom node pace hashes 0 { shift }
    (fun flight hflight => absurd hflight List.not_mem_nil)
    fun hash (hhash : hash ∈ hashes) => hhash
  rw [run_eq]
  exact hstarted.trans (Inquires.awaitAll node _ _ hflights)

end Resolution

namespace Shift

/-! ## The block and its transactions -/

/-- What is asked in the work on a block: for the block exactly when the cache lacks it, which is
then answered in some way, and else only for transactions of the block. -/
structure Inquiry (shift after : Shift σ υ) (number : String) (events : List Event) : Prop where
  asked : (∃ time, Event.asked time (.block number) ∈ events) ↔
    shift.cache.blocks.contains number = false
  answered : shift.cache.blocks.contains number = false →
    ∃ time answer, Event.answered time (.block number) answer ∈ events
  within : ∀ ask ∈ questions events, ask = .block number ∨
    ∃ block, after.cache.block number = .ok block ∧
      ∃ hash ∈ block.transactions, ask = .transaction hash

theorem Inquiry.append {shift obtained after : Shift σ υ} {number : String}
    {early late : List Event} {block : Block} (inquiry : Inquiry shift obtained number early)
    (stored : obtained.cache.block number = .ok block) (kept : after.cache.block number = .ok block)
    (further : ∀ ask ∈ questions late, ∃ hash ∈ block.transactions, ask = .transaction hash) :
    Inquiry shift after number (late ++ early) where
  asked := by
    rw [← inquiry.asked]
    constructor
    · rintro ⟨time, hmem⟩
      rcases List.mem_append.mp hmem with hlate | hearly
      · have hquestion : Ask.block number ∈ questions late := List.mem_filterMap.mpr ⟨_, hlate, rfl⟩
        obtain ⟨hash, -, hsame⟩ := further _ hquestion
        cases hsame
      · exact ⟨time, hearly⟩
    · rintro ⟨time, hearly⟩
      exact ⟨time, List.mem_append_right late hearly⟩
  answered hlacks := by
    obtain ⟨time, answer, hearly⟩ := inquiry.answered hlacks
    exact ⟨time, answer, List.mem_append_right late hearly⟩
  within ask hask := by
    rw [questions_append] at hask
    rcases List.mem_append.mp hask with hlate | hearly
    · exact Or.inr ⟨block, kept, further ask hlate⟩
    · refine (inquiry.within ask hearly).imp id ?_
      rintro ⟨other, hother, hash⟩
      exact ⟨block, kept, Except.ok.inj (hother.symm.trans stored) ▸ hash⟩

/-- A cached block is obtained without a question, and any other one is asked for. -/
theorem inquiry_obtainBlock (node : Node σ υ) (shift : Shift σ υ) (number : String) :
    ∃ events, (shift.obtainBlock node number).2.history = events ++ shift.history ∧
      Inquiry shift (shift.obtainBlock node number).2 number events ∧
      ∀ block, (shift.obtainBlock node number).1 = .ok block →
        (shift.obtainBlock node number).2.cache.block number = .ok block := by
  obtain ⟨events, hhistory, hobtaining⟩ := obtaining node shift number
  generalize (shift.obtainBlock node number).1 = result at hobtaining ⊢
  generalize (shift.obtainBlock node number).2 = obtained at hhistory hobtaining ⊢
  have hasked : ∀ time answer records, shift.cache.blocks.contains number = false →
      Inquiry shift obtained number
        (Event.exchange shift.time time (.block number) answer records) := by
    intro time answer records hlacked
    refine ⟨by simp [hlacked, Event.exchange], fun _ => ⟨time, answer, List.mem_cons_self⟩, ?_⟩
    intro ask hquestion
    rw [questions, Event.filterMap_exchange _ fun _ => rfl] at hquestion
    left
    simpa [Event.question?] using hquestion
  refine ⟨events, hhistory, ?_⟩
  cases hobtaining with
  | cached stored =>
      have hcontains := Cache.contains_of_block stored
      refine ⟨⟨by simp [hcontains], by simp [hcontains],
        fun _ hask => absurd hask List.not_mem_nil⟩, ?_⟩
      intro other hother
      cases hother
      exact stored
  | refused lacked moves time => exact ⟨hasked _ _ _ lacked, fun _ hblock => by cases hblock⟩
  | answered lacked moves time stored =>
      refine ⟨hasked _ _ _ lacked, ?_⟩
      intro other hother
      cases hother
      exact stored

theorem inquiry_processBlock (node : Node σ υ) (pace : Pace) (shift : Shift σ υ) (number : String)
    (subscribers : List String) :
    ∃ events,
      (shift.processBlock node pace number subscribers).2.history = events ++ shift.history ∧
      Inquiry shift (shift.processBlock node pace number subscribers).2 number events := by
  obtain ⟨early, hearly, hinquiry, hobtained⟩ := inquiry_obtainBlock node shift number
  have resolved : ∀ {block outcome obtained worked},
      shift.obtainBlock node number = (.ok block, obtained) →
      Resolution.run node pace obtained block.transactions = (outcome, worked) →
      worked.cache.block number = .ok block ∧
        ∃ events, worked.history = events ++ shift.history ∧
          Inquiry shift worked number events := by
    intro block outcome obtained worked got ran
    obtain ⟨late, hlate, hfurther⟩ :=
      Resolution.inquires_run node pace obtained block.transactions
    obtain ⟨_, hmoves, -⟩ := Resolution.moves_run node pace obtained block.transactions
    rw [got] at hearly hinquiry hobtained
    rw [ran] at hlate hmoves
    obtain ⟨_, _, account⟩ := Account.of_moves hmoves
    have hstored : obtained.cache.block number = .ok block := hobtained block rfl
    have hkept : worked.cache.block number = .ok block := account.grows.block hstored
    exact ⟨hkept, late ++ early, by rw [hlate, hearly, List.append_assoc],
      hinquiry.append hstored hkept hfurther⟩
  have hwork := blockWork node pace shift number subscribers
  generalize (shift.processBlock node pace number subscribers).1 = result at hwork
  generalize (shift.processBlock node pace number subscribers).2 = after at hwork ⊢
  cases hwork with
  | withheld got =>
      rw [got] at hearly hinquiry
      exact ⟨early, hearly, hinquiry⟩
  | setback got ran => exact (resolved got ran).2
  | unmarked got ran marked => exact (resolved got ran).2
  | @processed block _ _ cache got ran marked =>
      obtain ⟨hkept, events, hhistory, hworked⟩ := resolved got ran
      have hmarked : cache.block number = .ok block :=
        (Cache.grows_markProcessed marked).block hkept
      have hnothing : ∀ ask ∈ questions [],
          ∃ hash ∈ block.transactions, ask = .transaction hash :=
        fun _ hask => absurd hask List.not_mem_nil
      exact ⟨events, hhistory, hworked.append hkept hmarked hnothing⟩

theorem inquiry_advance (node : Node σ υ) (pace : Pace) {shift after : Shift σ υ} {number : String}
    {result : Except Failure (Option String)}
    (candidate : shift.watcher.candidate shift.cache = .ok (some number))
    (advance : shift.advance node pace = (result, after)) :
    ∃ events, after.history = events ++ shift.history ∧ Inquiry shift after number events := by
  have hadvance : shift.processBlock node pace number shift.watcher.subscriptions =
      (result, after) := by
    rw [← advance]
    simp only [Shift.advance, candidate]
  simpa only [hadvance] using
    inquiry_processBlock node pace shift number shift.watcher.subscriptions

theorem inquiry_of_history (node : Node σ υ) (pace : Pace) {shift after : Shift σ υ}
    {number : String} {result : Except Failure (Option String)} {events : List Event}
    (candidate : shift.watcher.candidate shift.cache = .ok (some number))
    (advance : shift.advance node pace = (result, after))
    (history : after.history = events ++ shift.history) : Inquiry shift after number events := by
  obtain ⟨asked, hasked, hinquiry⟩ := inquiry_advance node pace candidate advance
  exact List.append_cancel_right (hasked.symm.trans history) ▸ hinquiry

end Shift

end BlockWatch
