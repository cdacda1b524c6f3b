import BlockWatch.Proofs.Counter
import BlockWatch.Proofs.Shift.Ledger

/-!
# A watcher on its own

Normative source: SPEC_FULL.md, section 4.3, `processNextBlock`, without the cache of its steps 5 to
7.

What a watcher does can be told without a cache: from the answers for the head and from a ledger
alone.  `Solo` is such a watcher, with what it has yet to hear of heads.  It chooses the next number
from its current block and its head (`Watcher.pick`), because a sound watcher finds its current
block marked.  A block is processed or not according to the ledger.

The work of a shift follows it (`Follows`, `follows_run`) as long as the heads are canonical and the
ledger explains every answer: both do the same deeds, and both come to the same watcher.  The
invariant is `Ledger.Serves`.
-/

set_option autoImplicit false

namespace BlockWatch

variable {σ υ : Type}

/-! ## Deeds -/

/-- What can be seen of the work of a watcher, apart from its questions and records. -/
inductive Deed where
  /-- it looked at the head, with this result -/
  | looked (result : Except Failure Unit)
  /-- it attempted a block, and processed it, had nothing to do, or failed -/
  | attempted (processed : Option (Option String))
  /-- it told somebody something -/
  | told (notification : Notification)

/-- The deed that an event tells of. -/
def Event.deed? : Event → Option Deed
  | .observed result => some (.looked result)
  | .attempted _ _ result => some (.attempted result.toOption)
  | .notified notification => some (.told notification)
  | _ => none

/-- The deeds among events. -/
def deeds (events : List Event) : List Deed := events.filterMap Event.deed?

theorem deeds_append (early late : List Event) :
    deeds (early ++ late) = deeds early ++ deeds late := List.filterMap_append

theorem heardHeads_append (early late : List Event) :
    heardHeads (early ++ late) = heardHeads early ++ heardHeads late := List.filterMap_append

theorem deeds_reverse (events : List Event) : deeds events.reverse = (deeds events).reverse :=
  List.filterMap_reverse

theorem heardHeads_reverse (events : List Event) :
    heardHeads events.reverse = (heardHeads events).reverse := List.filterMap_reverse

theorem deeds_of_underWay {events : List Event} (h : ∀ event ∈ events, event.IsUnderWay) :
    deeds events = [] := by
  rw [deeds, List.filterMap_eq_nil_iff]
  intro event hevent
  cases event with
  | observed result => exact (h _ hevent).elim
  | attempted before after result => exact (h _ hevent).elim
  | notified notification => exact (h _ hevent).elim
  | _ => rfl

/-- Of tidings the notifications are deeds, and none is about the head. -/
theorem deeds_of_tidings {told : List Event} (tidings : ∀ event ∈ told, event.IsTiding) :
    deeds told = (told.filterMap Event.notification?).map .told ∧ heardHeads told = [] := by
  constructor
  · rw [deeds, List.map_filterMap]
    apply List.filterMap_congr
    intro event hevent
    cases event with
    | announced number cache => rfl
    | notified notification => rfl
    | recorded record => rfl
    | _ => exact (tidings _ hevent).elim
  · exact Event.filterMap_of_tidings (fun _ _ => rfl) (fun _ => rfl) (fun _ => rfl) tidings

theorem heardHeads_of_questions {events : List Event} (h : ∀ ask ∈ questions events, ask ≠ .head) :
    heardHeads events = [] := by
  rw [heardHeads, List.filterMap_eq_nil_iff]
  intro event hevent
  cases event with
  | answered time ask answer =>
      cases ask with
      | head => exact absurd rfl (h .head (List.mem_filterMap.mpr ⟨_, hevent, rfl⟩))
      | _ => rfl
  | _ => rfl

/-! ## The choice without a cache -/

namespace Watcher

/-- What a watcher chooses, as far as its counter tells; there is no choice at the end. -/
def pick (watcher : Watcher) : Option (Option String) :=
  if watcher.AtEnd then none else some (watcher.counter.due.map Quantity.encode)

/-- The newest head is written in canonical spelling. -/
def Canonical (watcher : Watcher) : Prop :=
  ∀ head n, watcher.latest = some head → Quantity.decode head = .ok n → head = Quantity.encode n

/-- With a canonical head the choice does not depend on the cache. -/
theorem pick_eq {watcher : Watcher} {cache : Cache} (sound : watcher.Sound cache)
    (natural : watcher.Natural) (canonical : watcher.Canonical) :
    watcher.pick = (watcher.candidate cache).toOption := by
  have hchoice := choice_candidate sound natural
  unfold pick
  generalize watcher.candidate cache = candidate at hchoice
  cases hchoice with
  | idle due room =>
      rw [if_neg room, due]
      rfl
  | overflow atEnd current =>
      rw [if_pos atEnd]
      rfl
  | @next number n due decoded spelled =>
      have hroom : ¬ watcher.AtEnd := fun atEnd => by
        rw [atEnd.due_eq_none] at due
        cases due
      have hnumber : number = Quantity.encode n :=
        spelled.elim id fun hnew => canonical number n hnew.2 decoded
      rw [if_neg hroom, due, hnumber]
      rfl

end Watcher

/-! ## Watchers on their own -/

/-- A watcher, and the answers for the head that it has yet to hear. -/
structure Solo where
  watcher : Watcher
  heads : List (Except Failure String)

namespace Solo

/-- Some work of a watcher on its own: its deeds, and what has become of it. -/
abbrev Work := Solo → List Deed × Solo

/-- One work after the other. -/
def andThen (first last : Work) : Work := fun solo =>
  let (early, middle) := first solo
  let (late, after) := last middle
  (early ++ late, after)

/-- Look at the head. -/
def observe : Work := fun solo =>
  match solo.heads with
  | [] => ([], solo)
  | answer :: rest => ([.looked (headResult answer)], ⟨solo.watcher.hear answer, rest⟩)

/-- Attempt a block, and then wait for its tasks: whether it is processed stands in the ledger, and
so does what its subscribers are told. -/
def attempt (ledger : Ledger) : Work := fun solo =>
  match solo.watcher.pick with
  | none => ([.attempted none], solo)
  | some none => ([.attempted (some none)], solo)
  | some (some number) =>
      match ledger.delivery number with
      | none => ([.attempted none], solo)
      | some transactions =>
          (.attempted (some (some number)) ::
              solo.watcher.subscriptions.map (fun address => .told (.about transactions address)),
            { solo with watcher := { solo.watcher with current := some number } })

/-- An errand with its tasks; loops are left out. -/
def errand (ledger : Ledger) : Errand → Work
  | .observe => observe
  | .attempt => attempt ledger
  | .tick => andThen observe (attempt ledger)
  | .listen _ => fun solo => ([], solo)

end Solo

/-! ## Shifts that follow -/

/-- The heads that were heard are canonical spellings of numbers that are not negative. -/
def HeadsCanonical (events : List Event) : Prop :=
  ∀ head n, Except.ok head ∈ heardHeads events → Quantity.decode head = .ok n →
    0 ≤ n ∧ head = Quantity.encode n

theorem headsCanonical_append {early late : List Event} :
    HeadsCanonical (early ++ late) ↔ HeadsCanonical early ∧ HeadsCanonical late := by
  simp only [HeadsCanonical, heardHeads_append, List.mem_append]
  grind

theorem headsCanonical_reverse {events : List Event} :
    HeadsCanonical events.reverse ↔ HeadsCanonical events := by
  simp only [HeadsCanonical, heardHeads_reverse, List.mem_reverse]

theorem HeadsCanonical.suffix {early late : List Event} (heads : HeadsCanonical late)
    (suffix : early <:+ late) : HeadsCanonical early :=
  fun head n hhead => heads head n ((suffix.filterMap Event.heard?).subset hhead)

theorem HeadsCanonical.natural {events : List Event} (heads : HeadsCanonical events) :
    HeadsNatural events := fun head n hhead hn => (heads head n hhead hn).1

/-- What is kept up for a watcher and its cache. -/
structure Ledger.Serves (ledger : Ledger) (watcher : Watcher) (cache : Cache) : Prop where
  sound : watcher.Sound cache
  natural : watcher.Natural
  canonical : watcher.Canonical
  nodup : watcher.subscriptions.Nodup
  receiving : watcher.outlet = .channel true
  covers : ledger.Covers cache

namespace Shift

variable {ledger : Ledger}

/-- What was done in a shift is what the watcher would have done on its own, with the answers for
the head that it heard. -/
def Follows (work : Solo.Work) (shift after : Shift σ υ) : Prop :=
  ∃ events, after.history = events ++ shift.history ∧
    ∀ heads, work ⟨shift.watcher, heardHeads events.reverse ++ heads⟩ =
      (deeds events.reverse, ⟨after.watcher, heads⟩)

theorem Follows.andThen {first last : Solo.Work} {shift middle after : Shift σ υ}
    (early : Follows first shift middle) (late : Follows last middle after) :
    Follows (Solo.andThen first last) shift after := by
  obtain ⟨before, hbefore, hfirst⟩ := early
  obtain ⟨since, hsince, hlast⟩ := late
  refine ⟨since ++ before, by rw [hsince, hbefore, List.append_assoc], ?_⟩
  intro heads
  rw [List.reverse_append, heardHeads_append, List.append_assoc, Solo.andThen, hfirst, deeds_append]
  simp only [hlast]

theorem silent_records (records : List Record) :
    deeds (records.map Event.recorded) = [] ∧ heardHeads (records.map Event.recorded) = [] :=
  ⟨Event.filterMap_recorded (fun _ => rfl) _, Event.filterMap_recorded (fun _ => rfl) _⟩

theorem Follows.write {work : Solo.Work} {shift after : Shift σ υ}
    (follows : Follows work shift after) (records : List Record) :
    Follows work shift (after.write records) := by
  obtain ⟨events, hevents, hwork⟩ := follows
  obtain ⟨hdeeds, hheads⟩ := silent_records records
  rw [write_eq]
  refine ⟨(records.map Event.recorded).reverse ++ events, ?_, ?_⟩
  · rw [hevents, List.append_assoc]
  · intro heads
    rw [List.reverse_append, List.reverse_reverse, heardHeads_append, deeds_append, hdeeds, hheads,
      List.append_nil, List.append_nil]
    exact hwork heads

theorem Follows.settle_of_idle {work : Solo.Work} {shift after : Shift σ υ}
    (follows : Follows work shift after) (idle : after.watcher.tasks = []) :
    Follows work shift after.settle := by
  rw [Shift.settle_of_idle idle]
  exact follows

/-- Work follows together with its tasks if the lone watcher tells what they tell. -/
theorem Follows.settle {work : Solo.Work} {shift after : Shift σ υ} {events : List Event}
    (history : after.history = events ++ shift.history)
    (told : ∀ heads, work ⟨shift.watcher, heardHeads events.reverse ++ heads⟩ =
      (deeds events.reverse ++
          ((after.watcher.tidings after.cache).filterMap Event.notification?).map .told,
        ⟨{ after.watcher with tasks := [] }, heads⟩)) :
    Follows work shift after.settle := by
  have htidings : ∀ event ∈ after.watcher.tidings after.cache, event.IsTiding :=
    Watcher.isTiding_of_mem_tidings
  obtain ⟨hdeeds, hheads⟩ := deeds_of_tidings htidings
  rw [settle_eq]
  refine ⟨(after.watcher.tidings after.cache).reverse ++ events, ?_, ?_⟩
  · rw [history, List.append_assoc]
  · intro heads
    rw [List.reverse_append, List.reverse_reverse, heardHeads_append, deeds_append, hdeeds, hheads,
      List.append_nil]
    exact told heads

theorem Moves.watcher_of_idle {node : Node σ υ} {start now : Shift σ υ}
    (moves : Moves node start now) (idle : start.agenda = []) : now.watcher = start.watcher := by
  obtain ⟨_, kept, account⟩ := Account.of_moves moves
  have hkept : kept = [] := (List.append_eq_nil_iff.mp (account.agenda.symm.trans idle)).1
  rw [account.watcher, hkept]
  rfl

theorem follows_observeHead (node : Node σ υ) {shift : Shift σ υ} (idle : shift.agenda = []) :
    Follows Solo.observe shift (shift.observeHead node).2 := by
  obtain ⟨listened, records, answer, hmoves, hhistory, htold⟩ := observeHead_told node shift
  have hheard : heardHeads (.observed (headResult answer) ::
      Event.exchange shift.time listened.time .head answer records) = [answer] :=
    (List.filterMap_cons_none rfl).trans (Event.filterMap_exchange _ (fun _ => rfl) _ _ _ _ _)
  have hlooked : deeds (.observed (headResult answer) ::
      Event.exchange shift.time listened.time .head answer records) =
        [.looked (headResult answer)] :=
    congrArg (List.cons _) (Event.filterMap_exchange _ (fun _ => rfl) _ _ _ _ _)
  rw [htold]
  refine ⟨.observed (headResult answer) ::
    Event.exchange shift.time listened.time .head answer records,
    congrArg (List.cons _) hhistory, fun heads => ?_⟩
  rw [heardHeads_reverse, deeds_reverse, hheard, hlooked, ← hmoves.watcher_of_idle idle]
  rfl

/-! ## Attempts -/

theorem Follows.of_advance {shift worked : Shift σ υ} {result : Except Failure (Option String)}
    {events : List Event} (history : worked.history = events ++ shift.history)
    (silent : heardHeads events = [])
    (told : ∀ heads, Solo.attempt ledger ⟨shift.watcher, heads⟩ =
      (deeds events.reverse ++ [.attempted result.toOption], ⟨worked.watcher, heads⟩)) :
    Follows (Solo.attempt ledger) shift
      (worked.observe (.attempted shift.snapshot worked.snapshot result)) := by
  refine ⟨.attempted shift.snapshot worked.snapshot result :: events, ?_, ?_⟩
  · rw [observe, history]
    rfl
  · intro heads
    have hheard : heardHeads (.attempted shift.snapshot worked.snapshot result :: events) = [] :=
      silent
    rw [heardHeads_reverse, hheard, List.reverse_nil, List.nil_append, told, List.reverse_cons,
      deeds_append]
    rfl

theorem Inquiry.silent {shift after : Shift σ υ} {number : String} {events : List Event}
    (inquiry : Inquiry shift after number events) : heardHeads events = [] := by
  apply heardHeads_of_questions
  rintro ask hask rfl
  rcases inquiry.within _ hask with hblock | ⟨block, -, hash, -, htransaction⟩
  · cases hblock
  · cases htransaction

/-- An attempt that processes nothing queues nothing. -/
theorem Follows.of_unprocessed {shift worked : Shift σ υ}
    {result : Except Failure (Option String)} {events : List Event}
    (history : worked.history = events ++ shift.history) (silent : heardHeads events = [])
    (told : ∀ heads, Solo.attempt ledger ⟨shift.watcher, heads⟩ =
      (deeds events.reverse ++ [.attempted result.toOption], ⟨worked.watcher, heads⟩))
    (idle : worked.watcher.tasks = []) (records : List Record) :
    Follows (Solo.attempt ledger) shift
      ((worked.observe (.attempted shift.snapshot worked.snapshot result)).write
        records).settle := by
  refine ((Follows.of_advance history silent told).write records).settle_of_idle ?_
  rw [write_eq]
  exact idle

theorem Follows.of_failure {node : Node σ υ} {shift worked : Shift σ υ} {number : String}
    {events : List Event} {failure : Failure} (pick : shift.watcher.pick = some (some number))
    (delivery : ledger.delivery number = none) (idle : shift.agenda = [])
    (rested : shift.watcher.tasks = []) (moves : Moves node shift worked)
    (history : worked.history = events ++ shift.history) (silent : heardHeads events = [])
    (records : List Record) :
    Follows (Solo.attempt ledger) shift
      ((worked.observe (.attempted shift.snapshot worked.snapshot (.error failure))).write
        records).settle := by
  obtain ⟨_, account⟩ := Account.of_history moves history
  refine .of_unprocessed history silent ?_ (moves.watcher_of_idle idle ▸ rested) records
  intro heads
  simp only [Solo.attempt, pick, delivery, deeds_reverse, deeds_of_underWay account.underWay,
    moves.watcher_of_idle idle]
  rfl

theorem owed_of_marked {before after : Cache} {number : String} {block : Block}
    (marked : before.markProcessed number = .ok after) (stored : before.block number = .ok block)
    (subscribers : List String) :
    after.owed number subscribers =
      subscribers.map (Notification.about (blockTransactions before block)) := by
  obtain ⟨processed, hmarked, -⟩ := Cache.markProcessed_eq marked
  have htransactions : blockTransactions after block = blockTransactions before block := by
    rw [hmarked]
    rfl
  simp only [Cache.owed, (Cache.grows_markProcessed marked).block stored, htransactions]

/-- An attempt that processes a block queues one announcement, and its subscribers are told of the
transactions that were cached when the work was done. -/
theorem Follows.of_completes {shift worked after : Shift σ υ} {number : String} {block : Block}
    {events : List Event} (completes : Completes shift worked after number)
    (pick : shift.watcher.pick = some (some number))
    (delivery : ledger.delivery number = some (blockTransactions worked.cache block))
    (stored : worked.cache.block number = .ok block)
    (history : worked.history = events ++ shift.history)
    (underWay : ∀ event ∈ events, event.IsUnderWay) (silent : heardHeads events = [])
    (watcher : worked.watcher = shift.watcher) (rested : shift.watcher.tasks = [])
    (nodup : shift.watcher.subscriptions.Nodup) (receiving : shift.watcher.outlet = .channel true)
    (records : List Record) :
    Follows (Solo.attempt ledger) shift (after.write records).settle := by
  obtain ⟨hdeeds, hheads⟩ := silent_records records
  have hnow : after.watcher = { shift.watcher with
      current := some number, tasks := [.announce number shift.watcher.subscriptions] } := by
    rw [completes.watcher, watcher, rested]
    rfl
  have htold : (after.watcher.tidings after.cache).filterMap Event.notification? =
      shift.watcher.subscriptions.map
        (Notification.about (blockTransactions worked.cache block)) := by
    have hqueued : after.watcher.tasks = [(number, shift.watcher.subscriptions)].map
        fun block => .announce block.1 block.2 := by
      rw [hnow]
      rfl
    have hreceiving : after.watcher.outlet = .channel true := by
      rw [hnow]
      exact receiving
    rw [Watcher.notifications_of_queued after.cache hqueued (by simpa using nodup) hreceiving,
      List.flatMap_singleton]
    exact owed_of_marked completes.marked stored _
  have hended : { after.watcher with tasks := [] } =
      { shift.watcher with current := some number } := by
    rw [hnow, ← rested]
  have hhistory : (records.map Event.recorded).reverse ++ after.history =
      ((records.map Event.recorded).reverse ++
        .attempted shift.snapshot after.snapshot (.ok (some number)) :: events) ++
          shift.history := by
    rw [completes.history, history, List.append_assoc]
    rfl
  rw [write_eq]
  refine .settle hhistory ?_
  intro heads
  simp only [List.reverse_append, List.reverse_reverse, List.reverse_cons, heardHeads_append,
    deeds_append, hdeeds, hheads, htold, hended, heardHeads_reverse, silent, deeds_reverse,
    deeds_of_underWay underWay, Solo.attempt, pick, delivery, List.map_map]
  rfl

/-- The ledger determines the result of an attempt and of its tasks. -/
theorem follows_attempt (node : Node σ υ) (pace : Pace) {shift : Shift σ υ}
    (labelled : ledger.Labelled) (serves : ledger.Serves shift.watcher shift.cache)
    (idle : shift.agenda = []) (rested : shift.watcher.tasks = [])
    (explains : ledger.Explains (shift.attempt node pace).2.history) (records : List Record) :
    Follows (Solo.attempt ledger) shift ((shift.attempt node pace).2.write records).settle := by
  have hpick := Watcher.pick_eq serves.sound serves.natural serves.canonical
  have huntouched : Ledger.Untouched shift.agenda := by
    rw [idle]
    exact fun _ hmem => absurd hmem List.not_mem_nil
  obtain ⟨events, result, after, hending, hadvance, hattempt⟩ := ending_attempt node pace shift
  rw [hattempt] at explains ⊢
  have hexplains : ledger.Explains after.history :=
    explains.mono (List.subset_cons_self (Event.attempted _ _ result) after.history)
  cases hending with
  | undecided candidate =>
      rw [candidate] at hpick
      refine .of_unprocessed (List.nil_append shift.history).symm rfl ?_ rested records
      intro heads
      simp only [Solo.attempt, hpick, Except.toOption]
      rfl
  | idle candidate =>
      rw [candidate] at hpick
      refine .of_unprocessed (List.nil_append shift.history).symm rfl ?_ rested records
      intro heads
      simp only [Solo.attempt, hpick, Except.toOption]
      rfl
  | @withheld number _ failure worked candidate moves history unavailable =>
      have hasked := inquiry_of_history node pace candidate hadvance history
      rw [candidate] at hpick
      have hdelivery := Ledger.delivery_of_unavailable hasked unavailable
        (hexplains.mono (history ▸ List.subset_append_left _ _))
      exact .of_failure hpick hdelivery idle rested moves history hasked.silent records
  | @setback number _ failure worked candidate moves history first =>
      have hasked := inquiry_of_history node pace candidate hadvance history
      rw [candidate] at hpick
      have hcovers := serves.covers.moves labelled moves huntouched hexplains
      have hdelivery := Ledger.delivery_of_setback hasked first hcovers
        (hexplains.mono (history ▸ List.subset_append_left _ _))
      exact .of_failure hpick hdelivery idle rested moves history hasked.silent records
  | @processed number _ worked block cache candidate moves history first stored taken marked =>
      obtain ⟨_, account⟩ := Account.of_history moves history
      have hcovers := serves.covers.moves labelled moves huntouched hexplains
      have hdelivery := Ledger.delivery_of_taken account first stored taken labelled hcovers
        (hexplains.mono (history ▸ List.subset_append_left _ _))
      have hasked := inquiry_of_history node pace candidate hadvance history
      rw [candidate] at hpick
      exact .of_completes (completes_of_moves candidate moves stored marked) hpick hdelivery stored
        history account.underWay hasked.silent (moves.watcher_of_idle idle) rested serves.nodup
        serves.receiving records

end Shift

/-! ## What strides keep -/

/-- Subscribing, unsubscribing, and what happens to the node. -/
def Action.IsPlain : Action υ → Prop
  | .subscribe _ | .unsubscribe _ | .node _ => True
  | _ => False

theorem untouched_of_plain {agenda : List (Appointment υ)}
    (plain : ∀ appointment ∈ agenda, appointment.action.IsPlain) : Ledger.Untouched agenda := by
  intro appointment hmem call hcall
  have hplain := plain appointment hmem
  rw [hcall] at hplain
  exact hplain

namespace Ledger.Serves

variable {ledger : Ledger}

/-- Monotone in the cache. -/
theorem grow {watcher : Watcher} {before after : Cache} (serves : ledger.Serves watcher before)
    (grows : Cache.Grows before after) (covers : ledger.Covers after) :
    ledger.Serves watcher after :=
  { serves with sound := serves.sound.grow grows, covers }

theorem new : ledger.Serves {} .empty where
  sound := Watcher.sound_new _
  natural := Watcher.natural_new
  canonical head n h := by cases h
  nodup := List.nodup_nil
  receiving := rfl
  covers := .empty

/-- Only canonical heads are remembered as long as no others are heard. -/
theorem canonical_stride {node : Node σ υ} {pace : Pace} {shift after : Shift σ υ}
    (canonical : shift.watcher.Canonical) (stride : Shift.Stride node pace shift after)
    (heads : HeadsCanonical after.history) : after.watcher.Canonical := by
  have hmoves : ∀ {worked : Shift σ υ}, Shift.Moves node shift worked →
      worked.watcher.Canonical := by
    intro worked moves head n hlatest
    obtain ⟨_, _, account⟩ := Shift.Account.of_moves moves
    exact canonical head n (account.leftAlone.latest ▸ hlatest)
  intro head n hlatest hn
  cases stride.effect with
  | waits moves history cache current latest => exact hmoves moves head n (latest ▸ hlatest) hn
  | @hears worked answer moves history heard cache watcher =>
      rcases worked.watcher.hear_eq answer with hsame | ⟨other, _, hanswer, -, hnew⟩
      · exact hmoves moves head n (by rw [← hsame, ← watcher]; exact hlatest) hn
      · rw [watcher, hnew] at hlatest
        cases hlatest
        exact (heads head n (hanswer ▸ heard) hn).2
  | processes moves history candidate marked current latest =>
      exact hmoves moves head n (latest ▸ hlatest) hn

/-- Run lemma: preserved by strides in which only plain actions are done. -/
theorem strides {node : Node σ υ} {pace : Pace} {start last : Shift σ υ}
    (serves : ledger.Serves start.watcher start.cache) (labelled : ledger.Labelled)
    (strides : Shift.Strides node pace start last)
    (plain : ∀ appointment ∈ start.agenda, appointment.action.IsPlain)
    (explains : ledger.Explains last.history) (heads : HeadsCanonical last.history) :
    ledger.Serves last.watcher last.cache := by
  have hcovers := serves.covers.strides labelled strides (untouched_of_plain plain) explains
  induction strides with
  | refl => exact serves
  | @tail middle after early stride ih =>
      have hearly : ledger.Explains middle.history := explains.mono stride.suffixes.1.subset
      have hmiddle : ledger.Serves middle.watcher middle.cache :=
        ih hearly (heads.suffix stride.suffixes.1)
          (serves.covers.strides labelled early (untouched_of_plain plain) hearly)
      have hstaying : ∀ appointment ∈ middle.agenda, appointment.action ≠ .dropReceiver := by
        intro appointment hmem hdrop
        have hplain := plain appointment ((Shift.Strides.suffixes early).2.subset hmem)
        rw [hdrop] at hplain
        exact hplain
      have hquiet : ∀ {worked : Shift σ υ}, Shift.Quiet middle worked →
          worked.watcher.subscriptions.Nodup ∧ worked.watcher.outlet = .channel true :=
        fun quiet => ⟨quiet.nodup hmiddle.nodup, (quiet.outlet hstaying).trans hmiddle.receiving⟩
      have hkept : after.watcher.subscriptions.Nodup ∧ after.watcher.outlet = .channel true := by
        rcases stride.quiet_or_completes with quiet | ⟨worked, number, completes⟩
        · exact hquiet quiet
        · rw [completes.watcher]
          exact hquiet completes.still.quiet
      exact
        { sound := stride.effect.watcherSound hmiddle.sound
          natural := stride.effect.natural hmiddle.sound hmiddle.natural heads.natural
          canonical := canonical_stride hmiddle.canonical stride heads
          nodup := hkept.1
          receiving := hkept.2
          covers := hcovers }

end Ledger.Serves

/-! ## Errands -/

namespace Shift

variable {ledger : Ledger}

/-- Every errand but a loop follows, together with its tasks. -/
theorem follows_run (node : Node σ υ) (pace : Pace) {shift : Shift σ υ} {errand : Errand}
    (finite : ∀ cancelled, errand ≠ .listen cancelled) (labelled : ledger.Labelled)
    (serves : ledger.Serves shift.watcher shift.cache) (idle : shift.agenda = [])
    (rested : shift.watcher.tasks = [])
    (explains : ledger.Explains (Session.run node pace shift errand).2.history)
    (heads : HeadsCanonical (Session.run node pace shift errand).2.history) :
    Follows (Solo.errand ledger errand) shift (Session.run node pace shift errand).2.settle := by
  cases errand with
  | listen cancelled => exact absurd rfl (finite cancelled)
  | observe =>
      exact (follows_observeHead node idle).settle_of_idle
        ((still_observeHead node shift).tasks.trans rested)
  | attempt => exact follows_attempt node pace labelled serves idle rested explains []
  | tick =>
      have hlooked : Follows Solo.observe shift
          ((shift.observeHead node).2.write (headRecords (shift.observeHead node).1)) :=
        (follows_observeHead node idle).write _
      have hstill : Still shift
          ((shift.observeHead node).2.write (headRecords (shift.observeHead node).1)) :=
        (still_observeHead node shift).trans (Still.write _ _)
      have hstrides : Strides node pace shift
          ((shift.observeHead node).2.write (headRecords (shift.observeHead node).1)) :=
        .tail (.single .observe) (.write _)
      have htick : shift.tick node pace =
          (((shift.observeHead node).2.write (headRecords (shift.observeHead node).1)).attempt node
            pace).2.write (attemptRecords (((shift.observeHead node).2.write
              (headRecords (shift.observeHead node).1)).attempt node pace).1) := rfl
      simp only [Session.run, htick] at explains heads ⊢
      generalize (shift.observeHead node).2.write (headRecords (shift.observeHead node).1) = middle
        at hlooked hstill hstrides explains heads ⊢
      have hwrite : Stride node pace (middle.attempt node pace).2 _ :=
        .write (attemptRecords (middle.attempt node pace).1)
      have hattempted : ledger.Explains (middle.attempt node pace).2.history :=
        explains.mono hwrite.suffixes.1.subset
      have hsuffix : middle.history <:+ (middle.attempt node pace).2.history :=
        (Strides.suffixes (.single (.attempt : Stride node pace middle _))).1
      have hmiddle : ledger.Serves middle.watcher middle.cache := by
        apply serves.strides labelled hstrides
        · rw [idle]
          exact fun _ hmem => absurd hmem List.not_mem_nil
        · exact hattempted.mono hsuffix.subset
        · exact heads.suffix (hsuffix.trans hwrite.suffixes.1)
      have hidle : middle.agenda = [] := List.suffix_nil.mp (idle ▸ hstrides.suffixes.2)
      exact hlooked.andThen (follows_attempt node pace labelled hmiddle hidle
        (hstill.tasks.trans rested) hattempted _)

end Shift

end BlockWatch
