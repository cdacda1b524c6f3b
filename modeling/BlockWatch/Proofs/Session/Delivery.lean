import BlockWatch.Proofs.Session.Progress
import BlockWatch.Proofs.Session.Turns
import Mathlib

/-!
# Delivery

Normative source: SPEC_FULL.md, section 4.3, `notifyForBlock`:

    For **every** address in the subscriber snapshot — even one with an empty bucket for this block
    — `Notifier.Notify(address, bucket)` is invoked exactly once

The statement is about a course of turns (`Session.course`), so it covers callers that do other
things between an attempt and the tasks that the attempt has queued.  It says what has come of all
attempts once the caller has waited (`Delivered`): the processed blocks were announced one to one
and in order, and so was each address told, of the blocks for which it was subscribed when their
attempts began.  What it was told depends on the cache at the moment of the announcement, which has
at least what it had at the end of the attempt.

The invariant (`Delivering`) splits the processed blocks into those that were announced and those
whose announcements are still queued.  An attempt adds to the latter, running the queue moves them
over, and all other strides are still.  That each subscriber is told just once needs that no address
is subscribed twice, which every action preserves.
-/

set_option autoImplicit false

namespace BlockWatch

variable {σ υ : Type}

/-! ## What an address should be told -/

/-- A processed block that was announced: the attempt that processed it, and the cache at the moment
of its announcement. -/
structure Announcement where
  success : Success
  cache : Cache

/-- A notification is what an address has to be told: the transactions that the cache has for the
hashes of the block, in block order, as far as the address is their sender or their recipient. -/
structure Announcement.Tells (address : String) (announcement : Announcement)
    (notification : Notification) : Prop where
  addressed : notification.address = address
  transactions : ∃ block,
    announcement.cache.block announcement.success.number = .ok block ∧
      notification.transactions =
        (block.transactions.filterMap announcement.cache.transactions.find?).filter
          fun transaction => Address.canonical transaction.sender = address ∨
            transaction.recipient.map Address.canonical = some address

/-- The announcements among events: the number of a block, and the cache. -/
def announcements (events : List Event) : List (String × Cache) :=
  events.filterMap Event.announcement?

/-- The notifications among events that went to an address. -/
def notificationsTo (address : String) (events : List Event) : List Notification :=
  (events.filterMap Event.notification?).filter (·.address = address)

/-- The attempts among events that processed a block for an address. -/
def successesFor (address : String) (events : List Event) : List Success :=
  (successes events).filter (address ∈ ·.before.watcher.subscriptions)

/-- The announcements of the blocks that were processed for an address. -/
def announcedFor (address : String) (announced : List Announcement) : List Announcement :=
  announced.filter (address ∈ ·.success.before.watcher.subscriptions)

/-- Nothing came early: at any moment no more was announced, and nobody was told more, than the
attempts that were over by then had processed. -/
def Punctual (events : List Event) : Prop :=
  ∀ early, early <+: events →
    (announcements early).length ≤ (successes early).length ∧
      ∀ address, (notificationsTo address early).length ≤ (successesFor address early).length

/-- Everything that was processed was announced, and everybody was told once, in order, and of
nothing else. -/
structure Delivered (events : List Event) (announced : List Announcement) : Prop where
  /-- the announcements are those of the processed blocks, in the order of the attempts -/
  processed : successes events = announced.map (·.success)
  made : announcements events =
    announced.map fun announcement => (announcement.success.number, announcement.cache)
  /-- each is made from a cache that has what it had when the attempt ended -/
  grown : ∀ announcement ∈ announced,
    Cache.Grows announcement.success.after.cache announcement.cache
  /-- an address was told of the blocks for which it was subscribed when their attempts began -/
  told : ∀ address, List.Forall₂ (Announcement.Tells address)
    (announcedFor address announced) (notificationsTo address events)
  punctual : Punctual events

/-! ## Events of one kind -/

theorem announcements_append (early late : List Event) :
    announcements (early ++ late) = announcements early ++ announcements late :=
  List.filterMap_append

theorem notificationsTo_append (address : String) (early late : List Event) :
    notificationsTo address (early ++ late) =
      notificationsTo address early ++ notificationsTo address late := by
  rw [notificationsTo, List.filterMap_append, List.filter_append]
  rfl

theorem views_of_still {events : List Event} (still : ∀ event ∈ events, event.IsStill) :
    successes events = [] ∧ announcements events = [] ∧
      ∀ address, notificationsTo address events = [] := by
  refine ⟨List.filterMap_eq_nil_iff.mpr fun event hevent => (still event hevent).quiet,
    List.filterMap_eq_nil_iff.mpr fun event hevent => (still event hevent).announcement, ?_⟩
  intro address
  have hnone : events.filterMap Event.notification? = [] :=
    List.filterMap_eq_nil_iff.mpr fun event hevent => (still event hevent).notification
  rw [notificationsTo, hnone, List.filter_nil]

theorem successes_of_tidings {events : List Event} (tidings : ∀ event ∈ events, event.IsTiding) :
    successes events = [] :=
  Event.filterMap_of_tidings (fun _ _ => rfl) (fun _ => rfl) (fun _ => rfl) tidings

/-- Appending is punctual if the attempts before it account for everything in it. -/
theorem Punctual.append {early late : List Event} (punctual : Punctual early)
    (announced : (announcements (early ++ late)).length ≤ (successes early).length)
    (told : ∀ address,
      (notificationsTo address (early ++ late)).length ≤ (successesFor address early).length) :
    Punctual (early ++ late) := by
  intro upTo hupTo
  rcases List.prefix_or_prefix_of_prefix hupTo (List.prefix_append early late) with hearly | hlate
  · exact punctual upTo hearly
  · have hmore : ∀ address, (successesFor address early).length ≤
        (successesFor address upTo).length := fun address =>
      ((hlate.sublist.filterMap _).filter _).length_le
    refine ⟨?_, fun address => ?_⟩
    · calc (announcements upTo).length
        _ ≤ (announcements (early ++ late)).length := (hupTo.sublist.filterMap _).length_le
        _ ≤ (successes early).length := announced
        _ ≤ (successes upTo).length := (hlate.sublist.filterMap _).length_le
    · calc (notificationsTo address upTo).length
        _ ≤ (notificationsTo address (early ++ late)).length :=
            ((hupTo.sublist.filterMap _).filter _).length_le
        _ ≤ (successesFor address early).length := told address
        _ ≤ (successesFor address upTo).length := hmore address

/-! ## The invariant -/

/-- A processed block whose announcement is queued: nobody is told of it twice, and the cache has
the block and what it had when the attempt ended. -/
structure Success.Pending (success : Success) (cache : Cache) : Prop where
  nodup : success.before.watcher.subscriptions.Nodup
  stored : ∃ block, success.after.cache.block success.number = .ok block
  grown : Cache.Grows success.after.cache cache

/-- The announcement of a processed block. -/
def Success.announce (success : Success) : Task :=
  .announce success.number success.before.watcher.subscriptions

/-- Processed blocks that are all announced from one cache. -/
def announcedFrom (cache : Cache) (pending : List Success) : List Announcement :=
  pending.map fun success => ⟨success, cache⟩

theorem map_announcedFrom (cache : Cache) (pending : List Success) :
    (announcedFrom cache pending).map (·.success) = pending := by
  rw [announcedFrom, List.map_map]
  exact List.map_id pending

/-- What is kept up for a watcher whose receiver stays: nobody is subscribed twice, the channel is
open, and of the processed blocks some were announced and told of and the others are queued. -/
structure Delivering (events : List Event) (watcher : Watcher) (cache : Cache)
    (announced : List Announcement) (pending : List Success) : Prop where
  nodup : watcher.subscriptions.Nodup
  receiving : watcher.outlet = .channel true
  processed : successes events = announced.map (·.success) ++ pending
  made : announcements events =
    announced.map fun announcement => (announcement.success.number, announcement.cache)
  grown : ∀ announcement ∈ announced,
    Cache.Grows announcement.success.after.cache announcement.cache
  told : ∀ address, List.Forall₂ (Announcement.Tells address)
    (announcedFor address announced) (notificationsTo address events)
  queued : watcher.tasks = pending.map Success.announce
  pending : ∀ success ∈ pending, success.Pending cache
  punctual : Punctual events

namespace Delivering

variable {events : List Event} {watcher : Watcher} {cache : Cache}
  {announced : List Announcement} {pending : List Success}

theorem begin : Delivering [] {} .empty [] [] where
  nodup := List.nodup_nil
  receiving := rfl
  processed := rfl
  made := rfl
  grown := by simp
  told address := .nil
  queued := rfl
  pending := by simp
  punctual early h := by
    rw [List.prefix_nil.mp h]
    exact ⟨Nat.le_refl _, fun _ => Nat.le_refl _⟩

/-- Monotone in the cache. -/
theorem grow (delivering : Delivering events watcher cache announced pending) {after : Cache}
    (grows : Cache.Grows cache after) : Delivering events watcher after announced pending :=
  { delivering with
    pending := fun success hsuccess =>
      { delivering.pending success hsuccess with
        grown := (delivering.pending success hsuccess).grown.trans grows } }

/-- Preserved by still work. -/
theorem still {before after : Shift σ υ}
    (delivering : Delivering (events ++ before.history.reverse) before.watcher before.cache
      announced pending)
    (staying : ∀ appointment ∈ before.agenda, appointment.action ≠ .dropReceiver)
    (still : Shift.Still before after) :
    Delivering (events ++ after.history.reverse) after.watcher after.cache announced pending := by
  obtain ⟨fresh, hfresh, hstill⟩ := still.calm.history
  obtain ⟨hsuccesses, hannouncements, hnotifications⟩ :=
    views_of_still fun event hevent => hstill event (List.mem_reverse.mp hevent)
  have hgrown := delivering.grow still.calm.grows
  obtain ⟨hannounced, htold⟩ := delivering.punctual _ List.prefix_rfl
  rw [hfresh, List.reverse_append, ← List.append_assoc]
  refine ⟨still.calm.nodup delivering.nodup, ?_, ?_, ?_, delivering.grown, fun address => ?_, ?_,
    hgrown.pending, ?_⟩
  · rw [still.calm.outlet staying]
    exact delivering.receiving
  · rw [successes_append, hsuccesses, List.append_nil]
    exact delivering.processed
  · rw [announcements_append, hannouncements, List.append_nil]
    exact delivering.made
  · rw [notificationsTo_append, hnotifications, List.append_nil]
    exact delivering.told address
  · rw [still.tasks]
    exact delivering.queued
  · refine delivering.punctual.append ?_ fun address => ?_
    · rw [announcements_append, hannouncements, List.append_nil]
      exact hannounced
    · rw [notificationsTo_append, hnotifications, List.append_nil]
      exact htold address

/-- An attempt that processes a block appends it to the pending ones. -/
theorem completes {shift worked after : Shift σ υ} {number : String}
    (delivering : Delivering (events ++ shift.history.reverse) shift.watcher shift.cache announced
      pending)
    (staying : ∀ appointment ∈ shift.agenda, appointment.action ≠ .dropReceiver)
    (completes : Shift.Completes shift worked after number) :
    Delivering (events ++ after.history.reverse) after.watcher after.cache announced
      (pending ++ [⟨shift.snapshot, after.snapshot, number⟩]) := by
  have hworked := (delivering.still staying completes.still).grow
    (Cache.grows_markProcessed completes.marked)
  obtain ⟨hannounced, htold⟩ := hworked.punctual _ List.prefix_rfl
  rw [completes.watcher, completes.history, List.reverse_cons, ← List.append_assoc]
  have hsilent :
      announcements [.attempted shift.snapshot after.snapshot (.ok (some number))] = [] := rfl
  have hquiet : ∀ address, notificationsTo address
      [.attempted shift.snapshot after.snapshot (.ok (some number))] = [] := fun _ => rfl
  refine ⟨hworked.nodup, hworked.receiving, ?_, ?_, hworked.grown, fun address => ?_, ?_, ?_, ?_⟩
  · rw [successes_append, hworked.processed, List.append_assoc]
    rfl
  · rw [announcements_append, hsilent, List.append_nil]
    exact hworked.made
  · rw [notificationsTo_append, hquiet, List.append_nil]
    exact hworked.told address
  · rw [List.map_append, ← hworked.queued]
    rfl
  · intro success hsuccess
    rcases List.mem_append.mp hsuccess with hearlier | hnew
    · exact hworked.pending success hearlier
    · rw [List.mem_singleton.mp hnew]
      exact ⟨delivering.nodup, completes.stored, Cache.Grows.refl _⟩
  · refine hworked.punctual.append ?_ fun address => ?_
    · rw [announcements_append, hsilent, List.append_nil]
      exact hannounced
    · rw [notificationsTo_append, hquiet, List.append_nil]
      exact htold address

theorem filter_map_about {subscribers : List String} (nodup : subscribers.Nodup)
    (transactions : List Transaction) (address : String) :
    (subscribers.map (Notification.about transactions)).filter (·.address = address) =
      if address ∈ subscribers then [Notification.about transactions address] else [] := by
  rw [List.filter_map]
  have hsame : (fun other : String => decide (other = address)) =
      (fun notification : Notification => decide (notification.address = address)) ∘
        Notification.about transactions := rfl
  rw [← hsame, List.filter_eq, nodup.count]
  split <;> rfl

/-- What an address is told of the pending blocks when they are announced from a cache. -/
theorem tells_pending (cache : Cache) (address : String) (pending : List Success)
    (h : ∀ success ∈ pending, success.Pending cache) :
    List.Forall₂ (Announcement.Tells address) (announcedFor address (announcedFrom cache pending))
      ((pending.flatMap fun success =>
        cache.owed success.number success.before.watcher.subscriptions).filter
          (·.address = address)) := by
  induction pending with
  | nil => exact .nil
  | cons success rest ih =>
      have hrest := ih fun other hother => h other (List.mem_cons_of_mem success hother)
      obtain ⟨hnodup, ⟨block, hblock⟩, hgrown⟩ := h success List.mem_cons_self
      have hstored : cache.block success.number = .ok block := hgrown.block hblock
      have howed : (cache.owed success.number success.before.watcher.subscriptions).filter
          (·.address = address) = if address ∈ success.before.watcher.subscriptions then
            [Notification.about (Shift.blockTransactions cache block) address] else [] := by
        unfold Cache.owed
        rw [hstored]
        exact filter_map_about hnodup _ address
      rw [announcedFrom, announcedFor, List.map_cons, List.flatMap_cons, List.filter_append, howed]
      by_cases hfor : address ∈ success.before.watcher.subscriptions
      · rw [List.filter_cons_of_pos (by simpa using hfor), if_pos hfor]
        exact .cons ⟨rfl, block, hstored, rfl⟩ hrest
      · rw [List.filter_cons_of_neg (by simpa using hfor), if_neg hfor]
        exact hrest

/-- What the tasks of such a watcher come to. -/
theorem tidings (delivering : Delivering events watcher cache announced pending) :
    successes (watcher.tidings cache) = [] ∧
      announcements (watcher.tidings cache) =
        pending.map (fun success => (success.number, cache)) ∧
      ∀ address, List.Forall₂ (Announcement.Tells address)
        (announcedFor address (announcedFrom cache pending))
        (notificationsTo address (watcher.tidings cache)) := by
  have hqueued : watcher.tasks =
      (pending.map fun success => (success.number, success.before.watcher.subscriptions)).map
        fun block => .announce block.1 block.2 := by
    rw [delivering.queued, List.map_map]
    rfl
  have hnodup : ∀ block ∈ pending.map fun success =>
      (success.number, success.before.watcher.subscriptions), block.2.Nodup := by
    intro block hblock
    obtain ⟨success, hsuccess, rfl⟩ := List.mem_map.mp hblock
    exact (delivering.pending success hsuccess).nodup
  refine ⟨successes_of_tidings Watcher.isTiding_of_mem_tidings, ?_, fun address => ?_⟩
  · rw [announcements,
      Watcher.announcements_of_queued cache hqueued hnodup delivering.receiving, List.map_map]
    rfl
  · rw [notificationsTo,
      Watcher.notifications_of_queued cache hqueued hnodup delivering.receiving, List.flatMap_map]
    exact tells_pending cache address pending delivering.pending

/-- Running the queue announces and delivers everything that is pending. -/
theorem runQueue (delivering : Delivering events watcher cache announced pending) :
    Delivering (events ++ watcher.tidings cache) { watcher with tasks := [] } cache
      (announced ++ announcedFrom cache pending) [] := by
  obtain ⟨hsilent, hmade, htold⟩ := delivering.tidings
  have hprocessed : successes events =
      (announced ++ announcedFrom cache pending).map (·.success) := by
    rw [delivering.processed, List.map_append, map_announcedFrom]
  have hannounced : announcements (events ++ watcher.tidings cache) =
      (announced ++ announcedFrom cache pending).map
        fun announcement => (announcement.success.number, announcement.cache) := by
    rw [announcements_append, delivering.made, hmade, List.map_append, announcedFrom, List.map_map]
    rfl
  have htells : ∀ address, List.Forall₂ (Announcement.Tells address)
      (announcedFor address (announced ++ announcedFrom cache pending))
      (notificationsTo address (events ++ watcher.tidings cache)) := by
    intro address
    rw [announcedFor, List.filter_append, notificationsTo_append]
    exact List.rel_append (delivering.told address) (htold address)
  refine ⟨delivering.nodup, delivering.receiving, ?_, hannounced, ?_, htells, rfl, by simp, ?_⟩
  · rw [successes_append, hsilent, List.append_nil, List.append_nil]
    exact hprocessed
  · intro announcement hannouncement
    rcases List.mem_append.mp hannouncement with hearlier | hnew
    · exact delivering.grown announcement hearlier
    · obtain ⟨success, hsuccess, rfl⟩ := List.mem_map.mp hnew
      exact (delivering.pending success hsuccess).grown
  · refine delivering.punctual.append ?_ fun address => ?_
    · rw [hannounced, hprocessed, List.length_map, List.length_map]
    · rw [← (htells address).length_eq, successesFor, hprocessed, List.filter_map, List.length_map]
      exact Nat.le_refl _

theorem settle {shift : Shift σ υ}
    (delivering : Delivering (events ++ shift.history.reverse) shift.watcher shift.cache announced
      pending) :
    Delivering (events ++ shift.settle.history.reverse) shift.settle.watcher shift.settle.cache
      (announced ++ announcedFrom shift.cache pending) [] := by
  rw [Shift.settle_eq, List.reverse_append, List.reverse_reverse, ← List.append_assoc]
  exact delivering.runQueue

theorem delivered (delivering : Delivering events watcher cache announced []) :
    Delivered events announced where
  processed := delivering.processed.trans (List.append_nil _)
  made := delivering.made
  grown := delivering.grown
  told := delivering.told
  punctual := delivering.punctual

/-- Run lemma: preserved by strides. -/
theorem strides {node : Node σ υ} {pace : Pace} {start last : Shift σ υ}
    (strides : Shift.Strides node pace start last)
    (delivering : ∃ announced pending,
      Delivering (events ++ start.history.reverse) start.watcher start.cache announced pending)
    (staying : ∀ appointment ∈ start.agenda, appointment.action ≠ .dropReceiver) :
    ∃ announced pending,
      Delivering (events ++ last.history.reverse) last.watcher last.cache announced pending := by
  have hall : (∃ announced pending, Delivering (events ++ last.history.reverse) last.watcher
      last.cache announced pending) ∧ last.agenda <:+ start.agenda := by
    induction strides with
    | refl => exact ⟨delivering, List.suffix_rfl⟩
    | @tail middle after _ stride ih =>
        obtain ⟨⟨announced, pending, hmiddle⟩, hsuffix⟩ := ih
        have hstaying : ∀ appointment ∈ middle.agenda, appointment.action ≠ .dropReceiver :=
          fun appointment hmem => staying appointment (hsuffix.subset hmem)
        refine ⟨?_, stride.suffixes.2.trans hsuffix⟩
        rcases stride.cases with hstill | rfl | ⟨worked, number, hcompletes⟩
        · exact ⟨_, _, hmiddle.still hstaying hstill⟩
        · exact ⟨_, _, hmiddle.settle⟩
        · exact ⟨_, _, hmiddle.completes hstaying hcompletes⟩
  exact hall.1

end Delivering

namespace Session

/-- In every course of turns in which the receiver of a watcher stays, once the caller has waited,
each block that an attempt of the watcher processed was announced once, in the order of the attempts
and after its attempt was over, and each address was told exactly once of every block for which it
was subscribed at the beginning of the attempt, in the same order, and of nothing else. -/
theorem delivered_once (settings : Settings) (node : Node σ υ) (state : σ) (watchers : Nat)
    (turns : List (Turn υ)) (place : Nat)
    (hstays : ∀ turn ∈ turns, turn.watcher = place → .dropReceiver ∉ turn.actions) :
    ∃ announced, Delivered
      (eventsAt place
        ((new settings state watchers).course node (turns ++ [.wait place])).1) announced := by
  rw [course_append, eventsAt_append]
  cases hwatcher : (new settings state watchers).watchers[place]? with
  | none =>
      have hnothing := (strides_turn node).eventsAt_of_absent (turns ++ [.wait place]) _ hwatcher
      rw [← course, course_append, eventsAt_append] at hnothing
      rw [hnothing]
      exact ⟨[], Delivering.begin.delivered⟩
  | some watcher =>
      have hnew : watcher = {} := List.eq_of_mem_replicate (List.mem_of_getElem? hwatcher)
      obtain ⟨last, hlast, announced, pending, hdelivering⟩ :=
        (strides_turn node).watcher node place (fun action => action ≠ .dropReceiver)
          (fun events watcher cache =>
            ∃ announced pending, Delivering events watcher cache announced pending)
          (fun h hgrows => by
            obtain ⟨announced, pending, hdelivering⟩ := h
            exact ⟨announced, pending, hdelivering.grow hgrows⟩)
          (fun h hhistory hstaying hstrides =>
            Delivering.strides hstrides (by simpa [hhistory] using h) hstaying)
          turns (new settings state watchers) watcher [] hwatcher
          (fun turn hturn hplace action haction hdrop =>
            hstays turn hturn hplace (hdrop ▸ haction))
          ⟨[], [], hnew ▸ Delivering.begin⟩
      rw [← course, List.nil_append] at hdelivering
      rw [← course] at hlast
      -- the caller waits
      have hwaited : eventsAt place (((new settings state watchers).course node turns).2.course node
          [.wait place]).1 =
            last.tidings ((new settings state watchers).course node turns).2.cache := by
        rw [course_wait node hlast, eventsAt_cons_self rfl]
        exact List.append_nil _
      rw [hwaited]
      exact ⟨_, hdelivering.runQueue.delivered⟩

/-- A node with one block, in which an address sends one transaction and receives another one; in
place of the latter it answers with one that nobody asked for. -/
def mislabelling : Script where
  head := some "0x5"
  blocks := ⟨[("0x5", ⟨"0xb", ["0x1", "0x2"]⟩)]⟩
  transactions :=
    ⟨[("0x1", ⟨"0x1", "0xa", none, []⟩), ("0x2", ⟨"0x3", "0xc", none, []⟩)]⟩
  latency := ⟨[("0x5", 5)]⟩

/-- The address is subscribed in another spelling and unsubscribed during the attempt, after which
the caller puts the missing transaction into the cache before it waits. -/
def visit : List (Turn Script.Update) :=
  [.go (.act 0 (.subscribe "0x0a")), .go (.work 0 .observe []),
    .go (.work 0 .attempt [(3, .unsubscribe "0xa")]),
    .go (.act 0 (.cache (.addTransaction ⟨"0x2", "0xc", some "0x0a", []⟩)))]

/-- It is told of both transactions. -/
theorem delivered_once_visit :
    (∀ turn ∈ visit, turn.watcher = 0 → .dropReceiver ∉ turn.actions) ∧
      notificationsTo "0xa" (eventsAt 0
          ((new {} mislabelling 1).course Script.node (visit ++ [.wait 0])).1) =
        [⟨"0xa", [⟨"0x1", "0xa", none, []⟩, ⟨"0x2", "0xc", some "0x0a", []⟩]⟩] ∧
      ∃ announced, Delivered
        (eventsAt 0 ((new {} mislabelling 1).course Script.node (visit ++ [.wait 0])).1)
        announced := by
  have hstays : ∀ turn ∈ visit, turn.watcher = 0 → .dropReceiver ∉ turn.actions := by
    simp [visit, Turn.actions, Step.actions]
  exact ⟨hstays, by cbv, delivered_once {} Script.node mislabelling 1 visit 0 hstays⟩

end Session

end BlockWatch
