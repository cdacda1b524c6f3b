import BlockWatch.Proofs.Shift.Actions
import Mathlib.Logic.Relation

/-!
# The moves of a watcher at work

Normative source: SPEC_FULL.md, section 5:

    the poll loop suspends at the inter-tick delay and the inter-batch delay;
    transaction-resolution tasks suspend on network I/O inside the RPC collaborator.

While a watcher works and waits, only few things ever happen to its shift: an appointment is kept,
time passes, something is asked or started, and an answer comes in, which the cache learns, or a
failure.  `Move` lists them, with what each needs.  All work is made of moves, so what every move
preserves is preserved by all work.

`Account` says once what any number of moves adds up to: which events, which appointments, what the
watcher is after them, and by what the cache has grown.  `Account.of_moves` is the induction, and
statements about work use the fields of the account instead of another induction.
-/

set_option autoImplicit false

namespace BlockWatch

variable {σ υ : Type}

/-! ## Views of events and actions -/

namespace Event

/-- The transaction that the node answered with. -/
def learned? : Event → Option Transaction
  | .answered _ (.transaction _) (.ok transaction) => some transaction
  | _ => none

/-- The failure of the resolution of a transaction. -/
def setback? : Event → Option Failure
  | .answered _ (.transaction _) (.error failure) => some failure
  | _ => none

/-- The time of a question, of its end, or of the start of a resolution. -/
def time? : Event → Option Nat
  | .asked time _ => some time
  | .answered time _ _ => some time
  | .resolving time _ _ => some time
  | _ => none

/-- An event of work that is under way: neither what the work came to nor anything that was told. -/
def IsUnderWay : Event → Prop
  | .observed _ | .attempted _ _ _ | .announced _ _ | .notified _ => False
  | _ => True

/-- What is observed of a question, newest first: it was asked, records were written meanwhile, and
it was answered. -/
def exchange (asked answered : Nat) (ask : Ask) (answer : Except Failure ask.Answer)
    (records : List Record) : List Event :=
  .answered answered ask answer :: (records.map .recorded ++ [.asked asked ask])

/-- A view of events that passes over records sees of a question only that it was asked and
answered. -/
theorem filterMap_exchange {β : Type} (view : Event → Option β)
    (unrecorded : ∀ record, view (.recorded record) = none) (asked answered : Nat) (ask : Ask)
    (answer : Except Failure ask.Answer) (records : List Record) :
    (exchange asked answered ask answer records).filterMap view =
      (view (.answered answered ask answer)).toList ++ (view (.asked asked ask)).toList := by
  have single : ∀ event, [event].filterMap view = (view event).toList := by
    intro event
    cases h : view event <;> simp [h]
  rw [exchange, ← List.singleton_append, List.filterMap_append, List.filterMap_append,
    filterMap_recorded unrecorded, List.nil_append, single, single]

end Event

/-- The transaction that an action puts into the cache. -/
def Action.added? : Action υ → Option Transaction
  | .cache call => call.added?
  | _ => none

/-- The block that an action marks as processed. -/
def Action.marked? : Action υ → Option String
  | .cache call => call.marked?
  | _ => none

namespace Shift

/-! ## Moves -/

/-- One thing that happens to a shift while its watcher works. -/
inductive Move (node : Node σ υ) : Shift σ υ → Shift σ υ → Prop
  /-- the next appointment is kept -/
  | keep {shift : Shift σ υ} {appointment : Appointment υ} {rest : List (Appointment υ)}
      (next : shift.agenda = appointment :: rest) :
      Move node shift { shift.keep node appointment with agenda := rest }
  /-- time passes -/
  | pass {shift : Shift σ υ} {time : Nat} (later : shift.time ≤ time) :
      Move node shift { shift with time }
  /-- a question is asked -/
  | ask {shift : Shift σ υ} (ask : Ask) : Move node shift (shift.observe (.asked shift.time ask))
  /-- the resolution of a transaction is started -/
  | start {shift : Shift σ υ} (place : Nat) (hash : String) :
      Move node shift (shift.observe (.resolving shift.time place hash))
  /-- an answer comes in and the cache learns it -/
  | learn {shift : Shift σ υ} {ask : Ask} {answer : ask.Answer} {state : σ}
      (told : node.answer ask shift.node = (.ok answer, state)) :
      Move node shift
        ({ shift with node := state, cache := shift.cache.learn ask answer }.observe
          (.answered shift.time ask (.ok answer)))
  /-- a question fails -/
  | refuse {shift : Shift σ υ} {ask : Ask} {explanation : Explanation} {state : σ}
      (told : node.answer ask shift.node = (.error explanation, state)) :
      Move node shift
        ({ shift with node := state }.observe
          (.answered shift.time ask (.error (ask.failure explanation))))
  /-- the task of a transaction crashes -/
  | crash {shift : Shift σ υ} {hash : String} (crashes : node.crashes shift.node hash = true) :
      Move node shift
        (shift.observe (.answered shift.time (.transaction hash) (.error .taskCrashed)))

/-- Any number of moves. -/
abbrev Moves (node : Node σ υ) : Shift σ υ → Shift σ υ → Prop := Relation.ReflTransGen (Move node)

theorem moves_keepBefore (node : Node σ υ) (time : Nat) (agenda : List (Appointment υ)) :
    ∀ shift : Shift σ υ, Moves node { shift with agenda } (shift.keepBefore node time agenda) := by
  induction agenda with
  | nil =>
      intro shift
      exact .refl
  | cons appointment rest ih =>
      intro shift
      unfold keepBefore
      split
      · refine Relation.ReflTransGen.head ?_ (ih (shift.keep node appointment))
        have hkeep : Move node { shift with agenda := appointment :: rest } _ := .keep rfl
        simpa only [keep, act_agenda] using hkeep
      · exact .refl

theorem keepBefore_time (node : Node σ υ) (time : Nat) (agenda : List (Appointment υ)) :
    ∀ shift : Shift σ υ, (shift.keepBefore node time agenda).time = shift.time := by
  induction agenda with
  | nil =>
      intro shift
      rfl
  | cons appointment rest ih =>
      intro shift
      unfold keepBefore
      split
      · rw [ih]
        exact act_time node shift appointment.action
      · rfl

theorem moves_passUntil (node : Node σ υ) {time : Nat} {shift : Shift σ υ}
    (h : shift.time ≤ time) : Moves node shift (shift.passUntil node time) := by
  have hkept : Moves node shift (shift.keepBefore node time shift.agenda) :=
    moves_keepBefore node time shift.agenda shift
  refine hkept.tail (.pass ?_)
  rw [keepBefore_time]
  exact h

/-- While time passes, only records are added to the history. -/
theorem passUntil_history (node : Node σ υ) (time : Nat) (shift : Shift σ υ) :
    ∃ records : List Record,
      (shift.passUntil node time).history = records.map Event.recorded ++ shift.history := by
  have hkept : ∀ (agenda : List (Appointment υ)) (shift : Shift σ υ), ∃ records : List Record,
      (shift.keepBefore node time agenda).history =
        records.map Event.recorded ++ shift.history := by
    intro agenda
    induction agenda with
    | nil =>
        intro shift
        exact ⟨[], rfl⟩
    | cons appointment rest ih =>
        intro shift
        unfold keepBefore
        split
        · obtain ⟨later, hlater⟩ := ih (shift.keep node appointment)
          obtain ⟨first, hfirst, -⟩ := act_history node shift appointment.action
          refine ⟨later ++ first, ?_⟩
          rw [hlater, List.map_append, List.append_assoc, ← hfirst]
          rfl
        · exact ⟨[], rfl⟩
  exact hkept shift.agenda shift

/-- A question is asked, and after moves that add only records its answer is received. -/
theorem moves_ask (node : Node σ υ) (shift : Shift σ υ) (ask : Ask) :
    ∃ waited, ∃ records : List Record, Moves node shift waited ∧
      waited.time = shift.time + node.latency shift.node ask ∧
      waited.history =
        records.map Event.recorded ++ .asked shift.time ask :: shift.history ∧
      shift.ask node ask = waited.receive node ask := by
  obtain ⟨records, hrecords⟩ := passUntil_history node
    (shift.time + node.latency shift.node ask) (shift.observe (.asked shift.time ask))
  refine ⟨_, records, ?_, rfl, hrecords, rfl⟩
  exact Relation.ReflTransGen.head (.ask ask) (moves_passUntil node (Nat.le_add_right _ _))

/-! ## Accounts -/

/-- What moves from `start` to `now` add up to: the events, newest first, and the appointments that
were kept, in their order. -/
structure Account (start now : Shift σ υ) (events : List Event)
    (kept : List (Appointment υ)) : Prop where
  history : now.history = events ++ start.history
  agenda : start.agenda = kept ++ now.agenda
  /-- the watcher is what the kept appointments alone make of it -/
  watcher : now.watcher =
    (kept.map (·.action)).foldl Watcher.undergo start.watcher
  grows : Cache.Grows start.cache now.cache
  /-- a transaction is under a key when it was, was learned, or was put in by an action -/
  keys : ∀ hash, now.cache.transactions.contains hash = true ↔
    start.cache.transactions.contains hash = true ∨
      (∃ transaction ∈ events.filterMap Event.learned?, transaction.hash = hash) ∨
      ∃ transaction ∈ (kept.map (·.action)).filterMap Action.added?, transaction.hash = hash
  blocks : ∀ time number block, Event.answered time (.block number) (.ok block) ∈ events →
    now.cache.blocks.contains number = true
  /-- only actions mark blocks -/
  marks : ∀ number ∈ now.cache.processed, number ∈ start.cache.processed ∨
    number ∈ (kept.map (·.action)).filterMap Action.marked?
  underWay : ∀ event ∈ events, event.IsUnderWay
  /-- nothing is written down but new subscriptions -/
  records : ∀ record, Event.recorded record ∈ events →
    ∃ address, record = Watcher.subscribedRecord address
  later : start.time ≤ now.time
  times : ∀ time ∈ events.filterMap Event.time?, start.time ≤ time ∧ time ≤ now.time
  ordered : (events.filterMap Event.time?).Pairwise (· ≥ ·)

namespace Account

theorem refl (shift : Shift σ υ) : Account shift shift [] [] where
  history := rfl
  agenda := rfl
  watcher := rfl
  grows := Cache.Grows.refl _
  keys hash := by simp
  blocks := by simp
  marks number h := Or.inl h
  underWay := by simp
  records := by simp
  later := Nat.le_refl _
  times := by simp
  ordered := List.Pairwise.nil

theorem trans {start middle now : Shift σ υ} {first last : List Event}
    {early late : List (Appointment υ)} (before : Account start middle first early)
    (after : Account middle now last late) : Account start now (last ++ first) (early ++ late) where
  history := by rw [after.history, before.history, List.append_assoc]
  agenda := by rw [before.agenda, after.agenda, List.append_assoc]
  watcher := by rw [after.watcher, before.watcher, List.map_append, List.foldl_append]
  grows := before.grows.trans after.grows
  keys hash := by
    rw [after.keys, before.keys, List.map_append, List.filterMap_append, List.filterMap_append]
    simp only [List.mem_append]
    grind
  blocks time number block h := by
    rcases List.mem_append.mp h with h | h
    · exact after.blocks time number block h
    · exact after.grows.containsBlock (before.blocks time number block h)
  marks number h := by
    rw [List.map_append, List.filterMap_append, List.mem_append]
    rcases after.marks number h with h | h
    · exact (before.marks number h).imp id Or.inl
    · exact Or.inr (Or.inr h)
  underWay event h := (List.mem_append.mp h).elim (after.underWay event) (before.underWay event)
  records record h := (List.mem_append.mp h).elim (after.records record) (before.records record)
  later := Nat.le_trans before.later after.later
  times time h := by
    rw [List.filterMap_append, List.mem_append] at h
    rcases h with h | h
    · exact ⟨Nat.le_trans before.later (after.times time h).1, (after.times time h).2⟩
    · exact ⟨(before.times time h).1, Nat.le_trans (before.times time h).2 after.later⟩
  ordered := by
    rw [List.filterMap_append, List.pairwise_append]
    refine ⟨after.ordered, before.ordered, ?_⟩
    intro late hlate early hearly
    exact Nat.le_trans (before.times early hearly).2 (after.times late hlate).1

/-- A kept appointment adds records, and its action takes effect. -/
theorem keep (node : Node σ υ) {shift : Shift σ υ} {appointment : Appointment υ}
    {rest : List (Appointment υ)} (next : shift.agenda = appointment :: rest) :
    ∃ events, Account shift { shift.keep node appointment with agenda := rest } events
      [appointment] := by
  obtain ⟨records, hhistory, hrecords⟩ := act_history node shift appointment.action
  refine ⟨records.map Event.recorded, ?_⟩
  constructor
  case history => exact hhistory
  case agenda => exact next
  case watcher => exact act_watcher node shift appointment.action
  case grows =>
    show Cache.Grows shift.cache (shift.act node appointment.action).2.cache
    rcases act_cache node shift appointment.action with ⟨call, -, h⟩ | ⟨subscriptions, -, h⟩
    · rw [h]
      exact Cache.grows_perform shift.cache call
    · rw [h]
      exact ⟨fun _ _ h => h, fun _ _ h => h, fun _ h => h⟩
  case keys =>
    intro hash
    show (shift.act node appointment.action).2.cache.transactions.contains hash = true ↔ _
    rw [Event.filterMap_recorded fun _ => rfl]
    rcases act_cache node shift appointment.action with ⟨call, hcall, h⟩ | ⟨_, hnot, h⟩
    · rw [h, Cache.contains_perform]
      simp [hcall, Action.added?]
    · have hadded : appointment.action.added? = none := by
        cases haction : appointment.action with
        | cache call => exact absurd haction (hnot call)
        | _ => rfl
      rw [h]
      simp [hadded]
  case blocks =>
    intro time number block h
    simp at h
  case marks =>
    intro number h
    replace h : number ∈ (shift.act node appointment.action).2.cache.processed := h
    rcases act_cache node shift appointment.action with ⟨call, hcall, hcache⟩ | ⟨_, -, hcache⟩
    · rw [hcache] at h
      apply (Cache.processed_perform h).imp id
      intro hmark
      simp [hcall, Action.marked?, hmark]
    · rw [hcache] at h
      exact Or.inl h
  case underWay =>
    intro event h
    obtain ⟨record, -, rfl⟩ := List.mem_map.mp h
    trivial
  case records =>
    intro record h
    obtain ⟨written, hwritten, heq⟩ := List.mem_map.mp h
    cases heq
    exact hrecords record hwritten
  case later => exact Nat.le_of_eq (act_time node shift appointment.action).symm
  case times =>
    rw [Event.filterMap_recorded fun _ => rfl]
    simp
  case ordered =>
    rw [Event.filterMap_recorded fun _ => rfl]
    exact List.Pairwise.nil

theorem note {shift : Shift σ υ} (state : σ) {cache : Cache} {event : Event}
    (grows : Cache.Grows shift.cache cache)
    (keys : ∀ hash, cache.transactions.contains hash = true ↔
      shift.cache.transactions.contains hash = true ∨
        ∃ transaction, event.learned? = some transaction ∧ transaction.hash = hash)
    (blocks : ∀ time number block, event = .answered time (.block number) (.ok block) →
      cache.blocks.contains number = true)
    (marks : cache.processed = shift.cache.processed)
    (underWay : event.IsUnderWay) (time : event.time? = some shift.time) :
    Account shift ({ shift with node := state, cache }.observe event) [event] [] where
  history := rfl
  agenda := rfl
  watcher := rfl
  grows := grows
  keys hash := by
    refine (keys hash).trans (or_congr_right ?_)
    cases hlearned : event.learned? with
    | none => simp [hlearned]
    | some transaction => simp [hlearned]
  blocks time number block h := by
    rw [List.mem_singleton] at h
    exact blocks time number block h.symm
  marks number h := Or.inl (marks ▸ h)
  underWay other h := by
    rw [List.mem_singleton] at h
    exact h ▸ underWay
  records record h := by
    rw [List.mem_singleton] at h
    rw [← h] at time
    cases time
  later := Nat.le_refl _
  times other h := by
    simp only [List.filterMap_cons, time, List.filterMap_nil, List.mem_singleton] at h
    exact h ▸ ⟨Nat.le_refl _, Nat.le_refl _⟩
  ordered := by
    simp only [List.filterMap_cons, time, List.filterMap_nil]
    exact List.pairwise_singleton _ _

theorem note_unlearned {shift : Shift σ υ} (state : σ) {event : Event}
    (learned : event.learned? = none)
    (blocks : ∀ time number block, event ≠ .answered time (.block number) (.ok block))
    (underWay : event.IsUnderWay) (time : event.time? = some shift.time) :
    Account shift ({ shift with node := state }.observe event) [event] [] :=
  note state (Cache.Grows.refl _) (by simp [learned])
    (fun time number block h => absurd h (blocks time number block)) rfl underWay time

theorem note_learned {shift : Shift σ υ} (state : σ) (ask : Ask) (answer : ask.Answer) :
    Account shift
      ({ shift with node := state, cache := shift.cache.learn ask answer }.observe
        (.answered shift.time ask (.ok answer)))
      [.answered shift.time ask (.ok answer)] [] := by
  refine note state (Cache.grows_learn shift.cache ask answer) ?_ ?_
    (Cache.learn_processed shift.cache ask answer) trivial rfl
  · intro hash
    cases ask with
    | head => simp [Cache.learn, Event.learned?]
    | block number => simp [Cache.learn, Event.learned?, Cache.addBlock]
    | transaction asked =>
        simp only [Cache.learn, Cache.contains_addTransaction, Event.learned?, Option.some.injEq,
          exists_eq_left']
        exact or_comm.trans (or_congr_right eq_comm)
  · intro time number block h
    cases h
    exact Cache.contains_addBlock shift.cache number block

/-- Step lemma. -/
theorem of_move {node : Node σ υ} {start now : Shift σ υ} (move : Move node start now) :
    ∃ events kept, Account start now events kept := by
  cases move with
  | @keep appointment rest next =>
      obtain ⟨events, account⟩ := keep node next
      exact ⟨events, [appointment], account⟩
  | @pass time later =>
      exact ⟨[], [], { refl start with later, times := by simp, history := rfl, agenda := rfl }⟩
  | ask question =>
      exact ⟨_, [], note_unlearned start.node rfl (by simp) trivial rfl⟩
  | start place hash =>
      exact ⟨_, [], note_unlearned start.node rfl (by simp) trivial rfl⟩
  | @learn ask answer state told => exact ⟨_, [], note_learned state ask answer⟩
  | @refuse ask explanation state told =>
      refine ⟨_, [], note_unlearned state ?_ ?_ trivial rfl⟩
      · cases ask <;> rfl
      · intro time number block h
        cases h
  | @crash hash crashes =>
      exact ⟨_, [], note_unlearned start.node rfl (by simp) trivial rfl⟩

/-- Run lemma. -/
theorem of_moves {node : Node σ υ} {start now : Shift σ υ} (moves : Moves node start now) :
    ∃ events kept, Account start now events kept := by
  induction moves with
  | refl => exact ⟨[], [], refl start⟩
  | tail _ move ih =>
      obtain ⟨first, early, before⟩ := ih
      obtain ⟨last, late, after⟩ := of_move move
      exact ⟨last ++ first, early ++ late, before.trans after⟩

end Account

end Shift

end BlockWatch
