import BlockWatch.Proofs.Shift.Notifications
import BlockWatch.Shift.Loop

/-!
# Leaving subscribers out

Normative source: SPEC_FULL.md, section 3:

    `subscriptions` (mirrors Cache's but held independently — see §9)

Subscriptions live in the watcher and in the cache, next to what the watcher advances by, and
notifications are sent while it works.  Here is what is left of all this when subscribers are left
out: of an agenda (`outline`), of events, of a watcher and of its cache (`hushed`).

Two shifts are level (`Shift.Level`) if the same is left of them, apart from the time and from what
is going to be done.  An action that is only about subscribers leaves everything else as it is
(`Level.act_forSubscribers`), and any other action does the same to what is left, whoever has
subscribed (`Level.act`).
-/

set_option autoImplicit false

namespace BlockWatch

variable {σ υ : Type}

/-! ## What is left -/

/-- Whether an action is only about subscribers: one comes or goes, or nobody receives notifications
any more. -/
def Action.isForSubscribers : Action υ → Bool
  | .subscribe _ => true
  | .unsubscribe _ => true
  | .cache (.subscribe _) => true
  | .cache (.unsubscribe _) => true
  | .dropReceiver => true
  | _ => false

/-- What is left of a cache. -/
def Cache.hushed (cache : Cache) : Cache := { cache with subscriptions := [] }

/-- What is left of a watcher: nobody is told anything by it. -/
def Watcher.hushed (watcher : Watcher) : Watcher :=
  { watcher with subscriptions := [], outlet := .journal, tasks := [] }

/-- What is left of a moment. -/
def Snapshot.hushed (moment : Snapshot) : Snapshot :=
  ⟨moment.time, moment.watcher.hushed, moment.cache.hushed⟩

/-- What is left of an event: nothing of an announcement, a notification or a record. -/
def Event.hushed? : Event → Option Event
  | .attempted before after result => some (.attempted before.hushed after.hushed result)
  | .announced _ _ => none
  | .notified _ => none
  | .recorded _ => none
  | event => some event

/-- What is left of events. -/
def hushed (events : List Event) : List Event := events.filterMap Event.hushed?

/-- What is left of an agenda: what is to be done, and when. -/
def outline (agenda : List (Appointment υ)) : List (Appointment υ) :=
  (agenda.filter fun appointment => !appointment.action.isForSubscribers).map
    fun appointment => { appointment with place := 0 }

theorem hushed_append (early late : List Event) :
    hushed (early ++ late) = hushed early ++ hushed late := List.filterMap_append

theorem hushed_of_tidings {told : List Event} (tidings : ∀ event ∈ told, event.IsTiding) :
    hushed told = [] :=
  Event.filterMap_of_tidings (fun _ _ => rfl) (fun _ => rfl) (fun _ => rfl) tidings

theorem outline_cons_of_forSubscribers {appointment : Appointment υ}
    (h : appointment.action.isForSubscribers = true) (rest : List (Appointment υ)) :
    outline (appointment :: rest) = outline rest := by
  rw [outline, List.filter_cons_of_neg (by simp [h])]
  rfl

theorem outline_cons_of_not {appointment : Appointment υ}
    (h : appointment.action.isForSubscribers = false) (rest : List (Appointment υ)) :
    outline (appointment :: rest) = { appointment with place := 0 } :: outline rest := by
  rw [outline, List.filter_cons_of_pos (by simp [h])]
  rfl

theorem outline_outline (agenda : List (Appointment υ)) :
    outline (outline agenda) = outline agenda := by
  induction agenda with
  | nil => rfl
  | cons appointment rest ih =>
      cases h : appointment.action.isForSubscribers with
      | true => rw [outline_cons_of_forSubscribers h, ih]
      | false =>
          have hleft : ({ appointment with place := 0 } : Appointment υ).action.isForSubscribers =
              false := h
          rw [outline_cons_of_not h, outline_cons_of_not hleft, ih]

theorem exists_of_mem_outline {agenda : List (Appointment υ)} {appointment : Appointment υ}
    (h : appointment ∈ outline agenda) :
    ∃ listed ∈ agenda, listed.time = appointment.time ∧ listed.action = appointment.action := by
  obtain ⟨listed, hlisted, rfl⟩ := List.mem_map.mp h
  exact ⟨listed, (List.mem_filter.mp hlisted).1, rfl, rfl⟩

theorem outline_ahead {appointment : Appointment υ} {rest : List (Appointment υ)} {time : Nat}
    (sorted : (appointment :: rest).Pairwise (·.time ≤ ·.time)) (later : time ≤ appointment.time) :
    ∀ left ∈ outline (appointment :: rest), time ≤ left.time := by
  intro left hleft
  obtain ⟨listed, hlisted, htime, -⟩ := exists_of_mem_outline hleft
  rw [← htime]
  rcases List.mem_cons.mp hlisted with rfl | hrest
  · exact later
  · exact Nat.le_trans later ((List.pairwise_cons.mp sorted).1 listed hrest)

theorem outline_sorted {agenda : List (Appointment υ)}
    (sorted : agenda.Pairwise (·.time ≤ ·.time)) : (outline agenda).Pairwise (·.time ≤ ·.time) :=
  List.pairwise_map.mpr (sorted.filter _)

namespace Cache

/-- Marking commutes with the projection. -/
theorem hushed_markProcessed (cache : Cache) (number : String) :
    cache.hushed.markProcessed number = (cache.markProcessed number).map hushed := by
  unfold markProcessed
  by_cases hstored : cache.blocks.contains number = true
  · by_cases hmarked : cache.processed.contains number = true
    · simp only [hushed, hstored, hmarked, if_true]
      rfl
    · simp only [hushed, hstored, hmarked, if_true]
      rfl
  · simp only [hushed, hstored]
    rfl

/-- An operation that is not about subscribers commutes with the projection. -/
theorem hushed_perform {call : Call} (h : (Action.cache call : Action υ).isForSubscribers = false)
    (cache : Cache) : (cache.hushed.perform call).2 = (cache.perform call).2.hushed := by
  cases call with
  | subscribe address => cases h
  | unsubscribe address => cases h
  | markProcessed number =>
      simp only [perform, change, hushed_markProcessed]
      cases cache.markProcessed number <;> rfl
  | _ => rfl

end Cache

namespace Shift

/-! ## Level shifts -/

/-- The same is left of two shifts, apart from the time and from what is going to be done. -/
structure Level (one other : Shift σ υ) : Prop where
  node : other.node = one.node
  cache : other.cache.hushed = one.cache.hushed
  watcher : other.watcher.hushed = one.watcher.hushed
  loop : other.loop = one.loop
  stopped : other.stopped = one.stopped
  history : hushed other.history = hushed one.history

namespace Level

theorem refl (shift : Shift σ υ) : Level shift shift := ⟨rfl, rfl, rfl, rfl, rfl, rfl⟩

variable {one other : Shift σ υ}

theorem symm (level : Level one other) : Level other one :=
  ⟨level.node.symm, level.cache.symm, level.watcher.symm, level.loop.symm, level.stopped.symm,
    level.history.symm⟩

theorem trans {third : Shift σ υ} (first : Level one other) (last : Level other third) :
    Level one third :=
  ⟨last.node.trans first.node, last.cache.trans first.cache, last.watcher.trans first.watcher,
    last.loop.trans first.loop, last.stopped.trans first.stopped, last.history.trans first.history⟩

/-! ### What they have in common -/

theorem blocks (level : Level one other) : other.cache.blocks = one.cache.blocks := by
  have hblocks := congrArg Cache.blocks level.cache
  exact hblocks

theorem transactions (level : Level one other) :
    other.cache.transactions = one.cache.transactions := by
  have htransactions := congrArg Cache.transactions level.cache
  exact htransactions

theorem block (level : Level one other) (number : String) :
    other.cache.block number = one.cache.block number := by
  simp only [Cache.block, level.blocks]

theorem handle (level : Level one other) : other.watcher.handle = one.watcher.handle := by
  have hhandle := congrArg Watcher.handle level.watcher
  exact hhandle

theorem loops (level : Level one other) : other.watcher.loops = one.watcher.loops := by
  have hloops := congrArg Watcher.loops level.watcher
  exact hloops

/-- The choice of a watcher does not depend on its subscribers. -/
theorem candidate (level : Level one other) :
    other.watcher.candidate other.cache = one.watcher.candidate one.cache := by
  have hchoice : ∀ shift : Shift σ υ, shift.watcher.candidate shift.cache =
      shift.watcher.hushed.candidate shift.cache.hushed := fun _ => rfl
  rw [hchoice other, hchoice one, level.watcher, level.cache]

theorem snapshot (level : Level one other) (time : other.time = one.time) :
    other.snapshot.hushed = one.snapshot.hushed := by
  simp only [Snapshot.hushed, Shift.snapshot, time, level.watcher, level.cache]

/-! ### What leaves them level -/

theorem observe (level : Level one other) {event event' : Event}
    (same : event'.hushed? = event.hushed?) :
    Level (one.observe event) (other.observe event') :=
  { level with
    history := by
      simp only [Shift.observe, hushed, List.filterMap_cons, same]
      have hhistory := level.history
      simp only [hushed] at hhistory
      rw [hhistory] }

theorem tidings (shift : Shift σ υ) {told : List Event}
    (tidings : ∀ event ∈ told, event.IsTiding) :
    Level shift { shift with history := told ++ shift.history } :=
  { refl shift with
    history := by rw [hushed_append, hushed_of_tidings tidings, List.nil_append] }

theorem write (shift : Shift σ υ) (records : List Record) : Level shift (shift.write records) := by
  rw [write_eq]
  exact tidings shift Event.isTiding_of_mem_records

theorem settle (shift : Shift σ υ) : Level shift shift.settle := by
  obtain ⟨told, hsettle, htold⟩ := settle_told shift
  have hunqueued : Level shift { shift with watcher := { shift.watcher with tasks := [] } } :=
    ⟨rfl, rfl, rfl, rfl, rfl, rfl⟩
  rw [hsettle]
  exact hunqueued.trans (tidings _ htold)

/-- An action for subscribers has no effect on the projection. -/
theorem act_forSubscribers (node : Node σ υ) (shift : Shift σ υ) {action : Action υ}
    (h : action.isForSubscribers = true) : Level shift (shift.act node action).2 := by
  cases action with
  | subscribe address =>
      obtain ⟨records, subscriptions, hsubscribe, -⟩ :=
        shift.watcher.subscribe_eq shift.cache address
      have hsubscribed : Level shift { shift with
          watcher := { shift.watcher with
            subscriptions := Roster.add shift.watcher.subscriptions (Address.canonical address) }
          cache := { shift.cache with subscriptions } } := ⟨rfl, rfl, rfl, rfl, rfl, rfl⟩
      simp only [Shift.act, hsubscribe]
      exact hsubscribed.trans (write _ records)
  | unsubscribe address =>
      obtain ⟨result, subscriptions, hunsubscribe⟩ :=
        shift.watcher.unsubscribe_eq shift.cache address
      simp only [Shift.act, hunsubscribe]
      exact ⟨rfl, rfl, rfl, rfl, rfl, rfl⟩
  | dropReceiver => exact ⟨rfl, rfl, rfl, rfl, rfl, rfl⟩
  | cache call =>
      cases call with
      | subscribe address => exact ⟨rfl, rfl, rfl, rfl, rfl, rfl⟩
      | unsubscribe address =>
          refine ⟨rfl, ?_, rfl, rfl, rfl, rfl⟩
          simp only [Shift.act, Cache.consult_cache, Cache.perform, Cache.change, Cache.unsubscribe]
          cases Roster.remove? shift.cache.subscriptions address <;> rfl
      | _ => cases h
  | _ => cases h

/-- Any other action has the same effect on the projection. -/
theorem act (level : Level one other) (node : Node σ υ) {action : Action υ}
    (h : action.isForSubscribers = false) :
    Level (one.act node action).2 (other.act node action).2 := by
  cases action with
  | subscribe address => cases h
  | unsubscribe address => cases h
  | dropReceiver => cases h
  | node update => exact { level with node := by simp only [Shift.act, level.node] }
  | cache call =>
      refine { level with cache := ?_ }
      simp only [Shift.act, Cache.consult_cache]
      rw [← Cache.hushed_perform h, ← Cache.hushed_perform h, level.cache]
  | close =>
      have hwatcher := congrArg (fun watcher => { watcher with handle := none }) level.watcher
      simp only [Shift.act, Shift.close, level.handle]
      cases one.watcher.handle with
      | none => exact level
      | some held =>
          exact { level with
            watcher := hwatcher
            stopped := by simp only [level.stopped, level.loop] }
  | cancel => exact { level with stopped := by simp only [Shift.act, level.stopped, level.loop] }

theorem keep_forSubscribers (node : Node σ υ) (shift : Shift σ υ) {appointment : Appointment υ}
    (h : appointment.action.isForSubscribers = true) :
    Level shift (shift.keep node appointment) :=
  { act_forSubscribers node shift h with }

theorem keep (level : Level one other) (node : Node σ υ) {appointment : Appointment υ}
    (h : appointment.action.isForSubscribers = false) (place : Nat) :
    Level (one.keep node appointment) (other.keep node { appointment with place }) :=
  { level.act node h with }

end Level

end Shift

end BlockWatch
