import BlockWatch.Proofs.Shift.Inquiry
import BlockWatch.Proofs.Shift.Schedule
import BlockWatch.Proofs.Shift.Soundness
import Mathlib.Data.List.Nodup

/-!
# What is gained by asking

Normative source: SPEC_FULL.md, section 4.3, step 6 of `processNextBlock`:

    already-resolved transactions remain cached (so retried ticks do less redundant work)

Every answer for a block or a transaction is a gain.  What was gained is in the cache from then on,
as long as every transaction carries the hash that it was asked for under (`Retains`): an answer is
stored under the hash that it carries.  So the work of a watcher gains nothing that its cache had
before, and nothing twice (`Thrift`): it asks only for what the cache lacks, and if no block lists a
transaction twice, none is on its way twice.

That an attempt gains nothing twice is counted from its `Tally`, because in between the gain of a
request is neither in the cache nor among the events.  Legs compose (`Legs.thrift`), and so does the
work of several watchers on one cache.
-/

set_option autoImplicit false

open scoped List

namespace BlockWatch

variable {σ υ : Type}

/-! ## Gains -/

/-- Whether a cache has what a question asks for; the head it never has. -/
def Cache.has (cache : Cache) : Ask → Bool
  | .head => false
  | .block number => cache.blocks.contains number
  | .transaction hash => cache.transactions.contains hash

theorem Cache.Grows.has {before after : Cache} (grows : Cache.Grows before after) {ask : Ask}
    (h : before.has ask = true) : after.has ask = true := by
  cases ask with
  | head => cases h
  | block number => exact grows.containsBlock h
  | transaction hash => exact grows.contains h

theorem Cache.Grows.lacked {before after : Cache} (grows : Cache.Grows before after) {ask : Ask}
    (h : after.has ask = false) : before.has ask = false := by
  rw [← Bool.not_eq_true] at h ⊢
  exact fun hbefore => h (grows.has hbefore)

namespace Event

/-- The question for a block or a transaction that was answered with it. -/
def gained? : Event → Option Ask
  | .answered _ (.block number) (.ok _) => some (.block number)
  | .answered _ (.transaction hash) (.ok _) => some (.transaction hash)
  | _ => none

/-- The hash that was asked for and the one that the answer carries. -/
def label? : Event → Option (String × String)
  | .answered _ (.transaction hash) (.ok transaction) => some (hash, transaction.hash)
  | _ => none

/-- The block that was answered with. -/
def block? : Event → Option Block
  | .answered _ (.block _) (.ok block) => some block
  | _ => none

end Event

/-- What was gained in events, in their order. -/
def gains (events : List Event) : List Ask := events.filterMap Event.gained?

/-- Every answer for a transaction carries the hash that was asked for. -/
def Labelled (events : List Event) : Prop :=
  ∀ label ∈ events.filterMap Event.label?, label.2 = label.1

/-- No block that was answered with lists a transaction twice. -/
def Simple (events : List Event) : Prop :=
  ∀ block ∈ events.filterMap Event.block?, block.transactions.Nodup

theorem gains_append (late early : List Event) :
    gains (late ++ early) = gains late ++ gains early := List.filterMap_append

theorem gains_records (records : List Record) : gains (records.map Event.recorded) = [] :=
  Event.filterMap_recorded (fun _ => rfl) records

theorem gains_of_tidings {told : List Event} (tidings : ∀ event ∈ told, event.IsTiding) :
    gains told = [] :=
  Event.filterMap_of_tidings (fun _ _ => rfl) (fun _ => rfl) (fun _ => rfl) tidings

theorem Labelled.mono {early late : List Event} (labelled : Labelled late)
    (subset : early ⊆ late) : Labelled early := by
  intro label hlabel
  obtain ⟨event, hevent, hview⟩ := List.mem_filterMap.mp hlabel
  exact labelled label (List.mem_filterMap.mpr ⟨event, subset hevent, hview⟩)

theorem Simple.mono {early late : List Event} (simple : Simple late) (subset : early ⊆ late) :
    Simple early := by
  intro block hblock
  obtain ⟨event, hevent, hview⟩ := List.mem_filterMap.mp hblock
  exact simple block (List.mem_filterMap.mpr ⟨event, subset hevent, hview⟩)

/-! ## Blocks that list no transaction twice -/

/-- The block that an operation puts in. -/
def Cache.Call.block? : Cache.Call → Option Block
  | .addBlock _ added => some added
  | _ => none

/-- The block that an action puts into the cache. -/
def Action.block? : Action υ → Option Block
  | .cache call => call.block?
  | _ => none

namespace Cache

/-- No block in the cache lists a transaction twice. -/
def Simple (cache : Cache) : Prop :=
  ∀ number block, cache.blocks.find? number = some block → block.transactions.Nodup

namespace Simple

theorem empty : Simple .empty := fun _ _ h => by cases h

theorem addBlock {cache : Cache} (simple : cache.Simple) (number : String) {block : Block}
    (nodup : block.transactions.Nodup) : (cache.addBlock number block).Simple := by
  intro other stored hstored
  replace hstored : (cache.blocks.insertNew number block).find? other = some stored := hstored
  rw [Table.find?_insertNew] at hstored
  split at hstored
  · cases hpresent : cache.blocks.find? number with
    | none =>
        rw [hpresent, Option.getD_none] at hstored
        exact Option.some.inj hstored ▸ nodup
    | some present =>
        rw [hpresent, Option.getD_some] at hstored
        exact Option.some.inj hstored ▸ simple number present hpresent
  · exact simple other stored hstored

theorem block {cache : Cache} (simple : cache.Simple) {number : String} {block : Block}
    (h : cache.block number = .ok block) : block.transactions.Nodup := by
  unfold Cache.block at h
  split at h
  · rename_i found hfound
    cases h
    exact simple number _ hfound
  · cases h

theorem perform {cache : Cache} (simple : cache.Simple) {call : Call}
    (added : ∀ block, call.block? = some block → block.transactions.Nodup) :
    (cache.perform call).2.Simple := by
  cases call with
  | addBlock number block => exact simple.addBlock number (added block rfl)
  | markProcessed number =>
      simp only [Cache.perform, change]
      cases hmark : cache.markProcessed number with
      | error failure => exact simple
      | ok marked =>
          obtain ⟨processed, rfl, -⟩ := markProcessed_eq hmark
          exact simple
  | unsubscribe address =>
      simp only [Cache.perform, change, Cache.unsubscribe]
      cases Roster.remove? cache.subscriptions address <;> exact simple
  | block number => exact simple
  | isProcessed number => exact simple
  | addTransaction transaction => exact simple
  | transaction hash => exact simple
  | transactionsOf address => exact simple
  | subscribe address => exact simple
  | subscriptions => exact simple

end Simple

end Cache

/-- No block that is put in by what is on an agenda lists a transaction twice. -/
def PutsSimple (agenda : List (Appointment υ)) : Prop :=
  ∀ appointment ∈ agenda, ∀ block, appointment.action.block? = some block →
    block.transactions.Nodup

theorem PutsSimple.suffix {before after : List (Appointment υ)} (puts : PutsSimple before)
    (suffix : after <:+ before) : PutsSimple after :=
  fun appointment hmem => puts appointment (suffix.subset hmem)

namespace Shift

theorem Move.simple {node : Node σ υ} {shift after : Shift σ υ} (move : Move node shift after)
    (simple : shift.cache.Simple) (puts : PutsSimple shift.agenda)
    (answers : Simple after.history) : after.cache.Simple := by
  cases move with
  | @keep appointment rest next =>
      show (shift.act node appointment.action).2.cache.Simple
      rcases act_cache node shift appointment.action with ⟨call, hcall, hcache⟩ | ⟨_, -, hcache⟩
      · have hadded := puts appointment (next ▸ List.mem_cons_self)
        rw [hcall] at hadded
        exact hcache ▸ simple.perform hadded
      · rw [hcache]
        exact simple
  | @learn ask answer state told =>
      cases ask with
      | block number => exact simple.addBlock number (answers answer List.mem_cons_self)
      | head => exact simple
      | transaction hash => exact simple
  | pass later => exact simple
  | ask question => exact simple
  | start place hash => exact simple
  | refuse told => exact simple
  | crash crashes => exact simple

theorem Moves.simple {node : Node σ υ} {start now : Shift σ υ} (moves : Moves node start now)
    (simple : start.cache.Simple) (puts : PutsSimple start.agenda) (answers : Simple now.history) :
    now.cache.Simple := by
  induction moves with
  | refl => exact simple
  | @tail middle after early move ih =>
      obtain ⟨_, _, before⟩ := Account.of_moves early
      obtain ⟨_, _, last⟩ := Account.of_move move
      have hmiddle : middle.cache.Simple :=
        ih (answers.mono (last.history ▸ List.subset_append_right _ _))
      exact move.simple hmiddle (puts.suffix ⟨_, before.agenda.symm⟩) answers

theorem Stride.simple {node : Node σ υ} {pace : Pace} {shift after : Shift σ υ}
    (stride : Stride node pace shift after) (simple : shift.cache.Simple)
    (puts : PutsSimple shift.agenda) (answers : Simple after.history) : after.cache.Simple := by
  have hworked : ∀ {worked : Shift σ υ}, Moves node shift worked →
      worked.history <:+ after.history → worked.cache.Simple :=
    fun moves history => moves.simple simple puts (answers.mono history.subset)
  cases stride.effect with
  | waits moves history cache current latest => exact cache ▸ hworked moves history
  | hears moves history heard cache watcher => exact cache ▸ hworked moves history
  | processes moves history candidate marked current latest =>
      obtain ⟨processed, hmarked, -⟩ := Cache.markProcessed_eq marked
      rw [hmarked]
      exact hworked moves history

/-! ## What was gained is kept -/

/-- Work whose gains are in the cache after it. -/
structure Retains (before after : Shift σ υ) (events : List Event) : Prop where
  history : after.history = events ++ before.history
  grows : Cache.Grows before.cache after.cache
  held : Labelled after.history → ∀ ask ∈ gains events, after.cache.has ask = true

namespace Retains

theorem refl (shift : Shift σ υ) : Retains shift shift [] where
  history := rfl
  grows := Cache.Grows.refl _
  held _ _ hask := absurd hask List.not_mem_nil

theorem trans {before middle after : Shift σ υ} {early late : List Event}
    (first : Retains before middle early) (last : Retains middle after late) :
    Retains before after (late ++ early) where
  history := by rw [last.history, first.history, List.append_assoc]
  grows := first.grows.trans last.grows
  held labelled ask hask := by
    rw [gains_append] at hask
    rcases List.mem_append.mp hask with hlate | hearly
    · exact last.held labelled ask hlate
    · have hmiddle : Labelled middle.history :=
        labelled.mono (last.history ▸ List.subset_append_right _ _)
      exact last.grows.has (first.held hmiddle ask hearly)

theorem of_idle {before after : Shift σ υ} {events : List Event}
    (history : after.history = events ++ before.history)
    (grows : Cache.Grows before.cache after.cache) (none : gains events = []) :
    Retains before after events where
  history := history
  grows := grows
  held _ _ hask := absurd (none ▸ hask) List.not_mem_nil

theorem of_learned {before after : Shift σ υ} {events : List Event}
    (history : after.history = events ++ before.history)
    (learned : Learned before.cache after.cache events) : Retains before after events where
  history := history
  grows := learned.grows
  held labelled ask hask := by
    obtain ⟨event, hevent, hgained⟩ := List.mem_filterMap.mp hask
    unfold Event.gained? at hgained
    split at hgained
    · cases hgained
      exact learned.blocks _ _ _ hevent
    · rename_i time hash transaction
      cases hgained
      have hmem : Event.answered time (.transaction hash) (.ok transaction) ∈ after.history :=
        history ▸ List.mem_append_left _ hevent
      have hlabel : transaction.hash = hash :=
        labelled (hash, transaction.hash) (List.mem_filterMap.mpr ⟨_, hmem, rfl⟩)
      exact hlabel ▸ learned.transactions time hash transaction hevent
    · cases hgained

theorem of_moves {node : Node σ υ} {start now : Shift σ υ} (moves : Moves node start now) :
    ∃ events, Retains start now events := by
  obtain ⟨events, _, account⟩ := Account.of_moves moves
  exact ⟨events, of_learned account.history account.learned⟩

end Retains

theorem retains_observeHead (node : Node σ υ) (shift : Shift σ υ) :
    ∃ events, Retains shift (shift.observeHead node).2 events ∧ gains events = [] := by
  obtain ⟨listened, records, answer, hmoves, hhistory, htold⟩ := observeHead_told node shift
  have hnone : gains (.observed (headResult answer) ::
      Event.exchange shift.time listened.time .head answer records) = [] :=
    (List.filterMap_cons_none rfl).trans (Event.filterMap_exchange _ (fun _ => rfl) _ _ _ _ _)
  obtain ⟨_, hretains⟩ := Retains.of_moves hmoves
  have hended : (shift.observeHead node).2.history = (.observed (headResult answer) ::
      Event.exchange shift.time listened.time .head answer records) ++ shift.history := by
    rw [htold]
    exact congrArg (List.cons _) hhistory
  have hgrows : Cache.Grows shift.cache (shift.observeHead node).2.cache := by
    rw [htold]
    exact hretains.grows
  exact ⟨_, .of_idle hended hgrows hnone, hnone⟩

theorem retains_attempt (node : Node σ υ) (pace : Pace) (shift : Shift σ υ) :
    ∃ events, Retains shift (shift.attempt node pace).2 events := by
  obtain ⟨events, _, hhistory, -, hlearned, -⟩ := attempt_frame node pace shift
  refine ⟨.attempted shift.snapshot (shift.attempt node pace).2.snapshot
    (shift.attempt node pace).1 :: events, .of_learned hhistory ⟨hlearned.grows, ?_, ?_⟩⟩
  · intro time number block h
    rcases List.mem_cons.mp h with h | h
    · cases h
    · exact hlearned.blocks time number block h
  · intro time hash transaction h
    rcases List.mem_cons.mp h with h | h
    · cases h
    · exact hlearned.transactions time hash transaction h

theorem retains_write (shift : Shift σ υ) (records : List Record) :
    ∃ events, Retains shift (shift.write records) events ∧ gains events = [] := by
  have hnone : gains (records.map Event.recorded).reverse = [] := by
    rw [← List.map_reverse, gains_records]
  rw [write_eq]
  exact ⟨_, .of_idle rfl (Cache.Grows.refl _) hnone, hnone⟩

theorem retains_settle (shift : Shift σ υ) :
    ∃ events, Retains shift shift.settle events ∧ gains events = [] := by
  obtain ⟨told, hsettle, htold⟩ := settle_told shift
  have hnone := gains_of_tidings htold
  rw [hsettle]
  exact ⟨told, .of_idle rfl (Cache.Grows.refl _) hnone, hnone⟩

/-- Step lemma: everything that was gained is in the cache. -/
theorem Stride.retains {node : Node σ υ} {pace : Pace} {shift after : Shift σ υ}
    (stride : Stride node pace shift after) : ∃ events, Retains shift after events := by
  cases stride with
  | move move => exact Retains.of_moves (.single move)
  | observe =>
      obtain ⟨events, hretains, -⟩ := retains_observeHead node shift
      exact ⟨events, hretains⟩
  | attempt => exact retains_attempt node pace shift
  | settle =>
      obtain ⟨events, hretains, -⟩ := retains_settle shift
      exact ⟨events, hretains⟩
  | write records =>
      obtain ⟨events, hretains, -⟩ := retains_write shift records
      exact ⟨events, hretains⟩
  | loop running stopped loops handle => exact ⟨[], .of_idle rfl (Cache.Grows.refl _) rfl⟩

theorem Strides.retains {node : Node σ υ} {pace : Pace} {start last : Shift σ υ}
    (strides : Strides node pace start last) : ∃ events, Retains start last events := by
  induction strides with
  | refl => exact ⟨[], .refl start⟩
  | tail _ stride ih =>
      obtain ⟨early, hearly⟩ := ih
      obtain ⟨late, hlate⟩ := stride.retains
      exact ⟨late ++ early, hearly.trans hlate⟩

end Shift

/-! ## What a resolution gains -/

namespace Resolution

/-- If only transactions are asked for, the gains are among the requests that are over. -/
theorem gains_sublist {events : List Event}
    (within : ∀ ask ∈ questions events, ∃ hash, ask = .transaction hash) :
    gains events <+
      (events.filterMap Event.flight?).map fun flight => .transaction flight.hash := by
  induction events with
  | nil => exact .slnil
  | cons event rest ih =>
      have hrest : ∀ ask ∈ questions rest, ∃ hash, ask = .transaction hash := by
        intro ask hask
        apply within
        rw [← List.singleton_append, questions_append]
        exact List.mem_append_right _ hask
      cases event with
      | answered time ask answer =>
          obtain ⟨hash, rfl⟩ := within ask List.mem_cons_self
          cases answer with
          | ok transaction => exact (ih hrest).cons_cons _
          | error failure => exact (ih hrest).cons _
      | _ => exact ih hrest

/-- A resolution gains nothing that was in the cache before, and nothing twice. -/
theorem gains_run (node : Node σ υ) (pace : Pace) (shift : Shift σ υ) (hashes : List String) :
    ∃ events, (run node pace shift hashes).2.history = events ++ shift.history ∧
      (∀ ask ∈ gains events, shift.cache.has ask = false) ∧
      (hashes.Nodup → (gains events).Nodup) := by
  obtain ⟨ended, events, htally, hflights, hrun⟩ := Tally.run node pace shift hashes
  obtain ⟨asked, hasked, hinquires⟩ := inquires_run node pace shift hashes
  have hhistory : (run node pace shift hashes).2.history = events ++ shift.history :=
    hrun ▸ htally.history
  have hsame : asked = events := List.append_cancel_right (hasked.symm.trans hhistory)
  have hwithin : gains events <+
      (events.filterMap Event.flight?).map fun flight => .transaction flight.hash := by
    apply gains_sublist
    intro ask hask
    obtain ⟨hash, -, h⟩ := hinquires ask (hsame ▸ hask)
    exact ⟨hash, h⟩
  have hover : events.filterMap Event.flight? ~
      (requests node pace shift hashes).map (Launch.flight node) := by
    have hperm := htally.flights
    rw [hflights, List.append_nil] at hperm
    exact hperm
  refine ⟨events, hhistory, ?_, ?_⟩
  · intro ask hask
    obtain ⟨flight, hflight, rfl⟩ := List.mem_map.mp (hwithin.subset hask)
    obtain ⟨launch, hlaunch, rfl⟩ := List.mem_map.mp (hover.subset hflight)
    obtain ⟨hlaunched, hasks⟩ := List.mem_filter.mp hlaunch
    obtain ⟨_, _, haccount⟩ := Shift.Account.of_moves (moves_launches hlaunched)
    exact haccount.grows.lacked (by simpa [Launch.asks, Cache.has, Launch.flight] using hasks)
  · intro hnodup
    have hrequests : ((requests node pace shift hashes).map (·.hash)).Nodup := by
      have hlaunches : ((launches node pace shift hashes).map (·.hash)).Nodup := by
        rw [hashes_launches]
        exact hnodup
      exact hlaunches.sublist (List.filter_sublist.map _)
    have hasks : ((events.filterMap Event.flight?).map
        fun flight => Ask.transaction flight.hash).Nodup := by
      have hperm := hover.map fun flight => Ask.transaction flight.hash
      rw [List.map_map] at hperm
      refine hperm.nodup_iff.mpr ?_
      have hinjective : Function.Injective Ask.transaction := fun _ _ h => Ask.transaction.inj h
      rw [show (fun flight : Flight => Ask.transaction flight.hash) ∘ Launch.flight node =
        Ask.transaction ∘ fun launch : Launch σ υ => launch.hash from rfl, ← List.map_map]
      exact List.Nodup.map hinjective hrequests
    exact hasks.sublist hwithin

end Resolution

namespace Shift

/-! ## Nothing is gained twice -/

/-- Obtaining a block gains at most the block, and only if the cache lacks it. -/
theorem gains_obtainBlock (node : Node σ υ) (shift : Shift σ υ) (number : String) :
    ∃ events, (shift.obtainBlock node number).2.history = events ++ shift.history ∧
      (gains events = [] ∨
        gains events = [.block number] ∧ shift.cache.has (.block number) = false) := by
  obtain ⟨events, hhistory, hobtaining⟩ := obtaining node shift number
  generalize (shift.obtainBlock node number).1 = result at hobtaining
  generalize (shift.obtainBlock node number).2 = obtained at hhistory hobtaining ⊢
  refine ⟨events, hhistory, ?_⟩
  cases hobtaining with
  | cached stored => exact Or.inl rfl
  | refused lacked moves time => exact Or.inl (Event.filterMap_exchange _ (fun _ => rfl) _ _ _ _ _)
  | answered lacked moves time stored =>
      exact Or.inr ⟨Event.filterMap_exchange _ (fun _ => rfl) _ _ _ _ _, lacked⟩

theorem gains_processBlock (node : Node σ υ) (pace : Pace) (shift : Shift σ υ) (number : String)
    (subscribers : List String) :
    ∃ events, (shift.processBlock node pace number subscribers).2.history =
        events ++ shift.history ∧
      (∀ ask ∈ gains events, shift.cache.has ask = false) ∧
      (shift.cache.Simple → PutsSimple shift.agenda →
        Simple (shift.processBlock node pace number subscribers).2.history →
        (gains events).Nodup) := by
  obtain ⟨early, hearly, hgained⟩ := gains_obtainBlock node shift number
  obtain ⟨_, hmoves, -, -, hcases⟩ := moves_obtainBlock node shift number
  have hlacked : ∀ ask ∈ gains early, shift.cache.has ask = false := by
    rcases hgained with hnone | ⟨hblock, hlacks⟩
    · rw [hnone]
      exact fun _ hask => absurd hask List.not_mem_nil
    · rw [hblock]
      exact fun ask hask => List.mem_singleton.mp hask ▸ hlacks
  have honce : (gains early).Nodup := by
    rcases hgained with hnone | ⟨hblock, -⟩
    · rw [hnone]
      exact List.nodup_nil
    · rw [hblock]
      exact List.nodup_singleton _
  rcases hgot : shift.obtainBlock node number with ⟨result, ready⟩
  rw [hgot] at hearly hmoves hcases
  rcases hcases with ⟨failure, hresult, -⟩ | ⟨block, hresult, hstored, -⟩
  · cases hresult
    refine ⟨early, ?_, hlacked, fun _ _ _ => honce⟩
    unfold processBlock
    rw [hgot]
    exact hearly
  · cases hresult
    obtain ⟨hhistory, -⟩ := processBlock_of_obtained pace hgot subscribers
    obtain ⟨late, hlate, hnew, hnodup⟩ := Resolution.gains_run node pace ready block.transactions
    obtain ⟨_, _, haccount⟩ := Account.of_moves hmoves
    have hended : (shift.processBlock node pace number subscribers).2.history =
        late ++ ready.history := hhistory.trans hlate
    refine ⟨late ++ early, by rw [hended, hearly, List.append_assoc], ?_, ?_⟩
    · intro ask hask
      rw [gains_append] at hask
      rcases List.mem_append.mp hask with hask | hask
      · exact haccount.grows.lacked (hnew ask hask)
      · exact hlacked ask hask
    · intro hcache hputs hanswers
      have hready : ready.cache.Simple :=
        hmoves.simple hcache hputs (hanswers.mono (hended ▸ List.subset_append_right _ _))
      rw [gains_append, List.nodup_append]
      refine ⟨hnodup (hready.block hstored), honce, ?_⟩
      -- the block is there before its transactions are asked for
      intro ask hask other hother hsame
      have hblock : other = .block number := by
        rcases hgained with hnone | ⟨hblock, -⟩
        · rw [hnone] at hother
          cases hother
        · rw [hblock] at hother
          exact List.mem_singleton.mp hother
      have hhas : ready.cache.has (.block number) = true := Cache.contains_of_block hstored
      rw [← hblock, ← hsame, hnew ask hask] at hhas
      cases hhas

theorem gains_attempt (node : Node σ υ) (pace : Pace) (shift : Shift σ υ) :
    ∃ events, (shift.attempt node pace).2.history = events ++ shift.history ∧
      (∀ ask ∈ gains events, shift.cache.has ask = false) ∧
      (shift.cache.Simple → PutsSimple shift.agenda →
        Simple (shift.attempt node pace).2.history → (gains events).Nodup) := by
  obtain ⟨events, hhistory, hlacked, honce⟩ : ∃ events,
      (shift.advance node pace).2.history = events ++ shift.history ∧
        (∀ ask ∈ gains events, shift.cache.has ask = false) ∧
        (shift.cache.Simple → PutsSimple shift.agenda →
          Simple (shift.advance node pace).2.history → (gains events).Nodup) := by
    unfold advance
    cases shift.watcher.candidate shift.cache with
    | error failure =>
        exact ⟨[], rfl, fun _ hask => absurd hask List.not_mem_nil, fun _ _ _ => List.nodup_nil⟩
    | ok chosen =>
        cases chosen with
        | none =>
            exact ⟨[], rfl, fun _ hask => absurd hask List.not_mem_nil, fun _ _ _ => List.nodup_nil⟩
        | some number => exact gains_processBlock node pace shift number _
  refine ⟨.attempted shift.snapshot (shift.attempt node pace).2.snapshot
    (shift.attempt node pace).1 :: events, congrArg (List.cons _) hhistory, hlacked, ?_⟩
  exact fun hcache hputs hanswers =>
    honce hcache hputs (hanswers.mono (List.subset_cons_self _ _))

end Shift

/-- A cache before and after some events: it had nothing of what was gained in them, it has all of
that now, and nothing was gained twice. -/
structure Thrift (before after : Cache) (events : List Event) : Prop where
  grows : Cache.Grows before after
  held : ∀ ask ∈ gains events, after.has ask = true
  lacked : ∀ ask ∈ gains events, before.has ask = false
  once : (gains events).Nodup

namespace Thrift

theorem of_idle {before after : Cache} {events : List Event} (grows : Cache.Grows before after)
    (none : gains events = []) : Thrift before after events where
  grows := grows
  held _ hask := absurd (none ▸ hask) List.not_mem_nil
  lacked _ hask := absurd (none ▸ hask) List.not_mem_nil
  once := none ▸ List.nodup_nil

theorem refl (cache : Cache) : Thrift cache cache [] := of_idle (Cache.Grows.refl cache) rfl

theorem trans {before middle after : Cache} {early late : List Event}
    (first : Thrift before middle early) (last : Thrift middle after late) :
    Thrift before after (late ++ early) where
  grows := first.grows.trans last.grows
  held ask hask := by
    rw [gains_append] at hask
    rcases List.mem_append.mp hask with hask | hask
    · exact last.held ask hask
    · exact last.grows.has (first.held ask hask)
  lacked ask hask := by
    rw [gains_append] at hask
    rcases List.mem_append.mp hask with hask | hask
    · exact first.grows.lacked (last.lacked ask hask)
    · exact first.lacked ask hask
  once := by
    rw [gains_append, List.nodup_append]
    refine ⟨last.once, first.once, ?_⟩
    -- what was gained first is in the cache when the rest is asked for
    intro ask hask other hother hsame
    have hheld := first.held other hother
    rw [← hsame, last.lacked ask hask] at hheld
    cases hheld

/-- The order of the events does not matter. -/
theorem perm {before after : Cache} {events others : List Event}
    (thrift : Thrift before after events) (perm : others ~ events) :
    Thrift before after others where
  grows := thrift.grows
  held ask hask := thrift.held ask ((perm.filterMap _).subset hask)
  lacked ask hask := thrift.lacked ask ((perm.filterMap _).subset hask)
  once := (perm.filterMap _).nodup_iff.mpr thrift.once

end Thrift

namespace Shift

/-- Step lemma, for transactions that carry their hashes and blocks without repetition. -/
theorem Leg.thrift {node : Node σ υ} {pace : Pace} {shift after : Shift σ υ}
    (leg : Leg node pace shift after) (labelled : Labelled after.history)
    (simple : shift.cache.Simple) (puts : PutsSimple shift.agenda)
    (answers : Simple after.history) :
    ∃ events, after.history = events ++ shift.history ∧ Thrift shift.cache after.cache events := by
  have hgrows : Strides node pace shift after := .single leg.stride
  replace hgrows := hgrows.grows
  cases leg with
  | @keep appointment rest next =>
      obtain ⟨records, hhistory, -⟩ := act_history node shift appointment.action
      exact ⟨_, hhistory, .of_idle hgrows (gains_records records)⟩
  | pass later => exact ⟨[], rfl, .of_idle hgrows rfl⟩
  | observe =>
      obtain ⟨events, hretains, hnone⟩ := retains_observeHead node shift
      exact ⟨events, hretains.history, .of_idle hgrows hnone⟩
  | settle =>
      obtain ⟨events, hretains, hnone⟩ := retains_settle shift
      exact ⟨events, hretains.history, .of_idle hgrows hnone⟩
  | write records =>
      obtain ⟨events, hretains, hnone⟩ := retains_write shift records
      exact ⟨events, hretains.history, .of_idle hgrows hnone⟩
  | loop running stopped loops handle => exact ⟨[], rfl, .of_idle hgrows rfl⟩
  | attempt =>
      obtain ⟨events, hhistory, hlacked, honce⟩ := gains_attempt node pace shift
      obtain ⟨gained, hretains⟩ := retains_attempt node pace shift
      have hsame : gained = events :=
        List.append_cancel_right (hretains.history.symm.trans hhistory)
      exact ⟨events, hhistory, hgrows, hsame ▸ hretains.held labelled, hlacked,
        honce simple puts answers⟩

/-- Run lemma over the legs of an errand. -/
theorem Legs.thrift {node : Node σ υ} {pace : Pace} {start last : Shift σ υ}
    (legs : Legs node pace start last) (labelled : Labelled last.history)
    (simple : start.cache.Simple) (puts : PutsSimple start.agenda) (answers : Simple last.history) :
    last.cache.Simple ∧
      ∃ events, last.history = events ++ start.history ∧
        Thrift start.cache last.cache events := by
  induction legs with
  | refl => exact ⟨simple, [], rfl, .refl _⟩
  | @tail middle after early leg ih =>
      obtain ⟨hhistory, -⟩ := leg.stride.suffixes
      obtain ⟨hmiddle, earlier, hearlier, hfirst⟩ :=
        ih (labelled.mono hhistory.subset) (answers.mono hhistory.subset)
      have hputs : PutsSimple middle.agenda := puts.suffix (Legs.strides early).suffixes.2
      obtain ⟨later, hlater, hlast⟩ := leg.thrift labelled hmiddle hputs answers
      exact ⟨leg.stride.simple hmiddle hputs answers, later ++ earlier,
        by rw [hlater, hearlier, List.append_assoc], hfirst.trans hlast⟩

end Shift

end BlockWatch
