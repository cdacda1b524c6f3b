import BlockWatch.Proofs.Cache
import BlockWatch.Proofs.Roster
import BlockWatch.Shift

/-!
# What an action changes

Normative source: SPEC_FULL.md, section 10.7:

    `subscribe`/`unsubscribe` are serialized so the Watcher and Cache subscription sets always
    agree.

One lemma for each part of a shift that an action may touch.  What an action makes of the watcher
depends on the watcher alone (`Watcher.undergo`, `act_watcher`).  It leaves the head and the current
block as they are, lets the cache grow (`act_cache`), adds nothing to the history but records
(`act_history`), and touches neither the time nor the agenda.  So an action that is done while the
watcher waits cannot disturb an attempt; this is used for every move in `Proofs.Shift.Moves`.
-/

set_option autoImplicit false

namespace BlockWatch

variable {σ υ : Type}

/-- Records do not show in a view that is not about records. -/
theorem Event.filterMap_recorded {β : Type} {view : Event → Option β}
    (h : ∀ record, view (.recorded record) = none) (records : List Record) :
    (records.map Event.recorded).filterMap view = [] := by
  rw [List.filterMap_map, List.filterMap_eq_nil_iff]
  exact fun record _ => h record

/-! ## Watchers -/

namespace Watcher

/-- The watcher after an action. -/
def undergo (watcher : Watcher) : Action υ → Watcher
  | .subscribe address =>
      { watcher with
        subscriptions := Roster.add watcher.subscriptions (Address.canonical address) }
  | .unsubscribe address =>
      { watcher with subscriptions := watcher.subscriptions.erase (Address.canonical address) }
  | .close => { watcher with handle := none }
  | .dropReceiver => { watcher with outlet := watcher.outlet.dropReceiver }
  | .node _ | .cache _ | .cancel => watcher

/-- Subscribing changes the subscriptions of watcher and cache only. -/
theorem subscribe_eq (watcher : Watcher) (cache : Cache) (address : String) :
    ∃ records subscriptions,
      watcher.subscribe cache address =
        (records,
          { watcher with
            subscriptions := Roster.add watcher.subscriptions (Address.canonical address) },
          { cache with subscriptions }) ∧
      ∀ record ∈ records, ∃ subscribed, record = subscribedRecord subscribed := by
  unfold subscribe
  by_cases h : watcher.subscriptions.contains (Address.canonical address) = true
  · refine ⟨[], cache.subscriptions, ?_, by simp⟩
    simp only [if_pos h, Roster.add]
  · refine ⟨[subscribedRecord (Address.canonical address)],
      (cache.subscribe (Address.canonical address)).subscriptions, ?_, ?_⟩
    · simp only [if_neg h]
      rfl
    · intro record hrecord
      exact ⟨_, List.mem_singleton.mp hrecord⟩

/-- Unsubscribing changes the subscriptions of watcher and cache only. -/
theorem unsubscribe_eq (watcher : Watcher) (cache : Cache) (address : String) :
    ∃ result subscriptions,
      watcher.unsubscribe cache address =
        (result,
          { watcher with
            subscriptions := watcher.subscriptions.erase (Address.canonical address) },
          { cache with subscriptions }) := by
  unfold unsubscribe
  cases hwatcher : Roster.remove? watcher.subscriptions (Address.canonical address) with
  | none =>
      refine ⟨.error (.addressNotFound (Address.canonical address)), cache.subscriptions, ?_⟩
      simp only [hwatcher, Roster.remove?_eq_none hwatcher]
  | some rest =>
      cases hcache : Roster.remove? cache.subscriptions (Address.canonical address) with
      | none =>
          refine ⟨.error (.addressNotFound (Address.canonical address)), cache.subscriptions, ?_⟩
          simp only [hwatcher, Cache.unsubscribe, hcache, Roster.remove?_eq_some hwatcher]
      | some others =>
          refine ⟨.ok (), others, ?_⟩
          simp only [hwatcher, Cache.unsubscribe, hcache, Roster.remove?_eq_some hwatcher]

@[simp] theorem undergo_current (watcher : Watcher) (action : Action υ) :
    (watcher.undergo action).current = watcher.current := by
  cases action <;> rfl

@[simp] theorem undergo_latest (watcher : Watcher) (action : Action υ) :
    (watcher.undergo action).latest = watcher.latest := by
  cases action <;> rfl

@[simp] theorem undergo_tasks (watcher : Watcher) (action : Action υ) :
    (watcher.undergo action).tasks = watcher.tasks := by
  cases action <;> rfl

theorem nodup_undergo {watcher : Watcher} (h : watcher.subscriptions.Nodup) (action : Action υ) :
    (watcher.undergo action).subscriptions.Nodup := by
  cases action with
  | subscribe address => exact Roster.nodup_add h _
  | unsubscribe address => exact h.erase _
  | node update => exact h
  | cache call => exact h
  | close => exact h
  | cancel => exact h
  | dropReceiver => exact h

theorem undergo_outlet (watcher : Watcher) {action : Action υ} (h : action ≠ .dropReceiver) :
    (watcher.undergo action).outlet = watcher.outlet := by
  cases action with
  | dropReceiver => exact absurd rfl h
  | subscribe address => rfl
  | unsubscribe address => rfl
  | node update => rfl
  | cache call => rfl
  | close => rfl
  | cancel => rfl

end Watcher

/-! ## Shifts -/

namespace Shift

theorem write_eq (shift : Shift σ υ) (records : List Record) :
    shift.write records =
      { shift with history := (records.map Event.recorded).reverse ++ shift.history } := by
  unfold write
  induction records generalizing shift with
  | nil => rfl
  | cons record rest ih =>
      rw [List.foldl_cons, ih]
      simp [observe]

theorem close_eq (shift : Shift σ υ) :
    ∃ stopped, shift.close =
      { shift with watcher := { shift.watcher with handle := none }, stopped } := by
  obtain ⟨time, node, cache, ⟨subscriptions, current, latest, outlet, loops, handle, tasks⟩, agenda,
    kept, loop, stopped, history⟩ := shift
  cases handle with
  | none => exact ⟨stopped, rfl⟩
  | some held => exact ⟨stopped || loop = some held, rfl⟩

/-- The effect of an action on the watcher is `Watcher.undergo`. -/
theorem act_watcher (node : Node σ υ) (shift : Shift σ υ) (action : Action υ) :
    (shift.act node action).2.watcher = shift.watcher.undergo action := by
  cases action with
  | subscribe address =>
      obtain ⟨records, subscriptions, h, -⟩ := shift.watcher.subscribe_eq shift.cache address
      simp only [act, h, write_eq, Watcher.undergo]
  | unsubscribe address =>
      obtain ⟨result, subscriptions, h⟩ := shift.watcher.unsubscribe_eq shift.cache address
      simp only [act, h, Watcher.undergo]
  | close =>
      obtain ⟨stopped, h⟩ := shift.close_eq
      simp only [act, h, Watcher.undergo]
  | node update => rfl
  | cache call => rfl
  | cancel => rfl
  | dropReceiver => rfl

/-- The effect of an action on the cache is that of its operation, or is on the subscriptions only.
-/
theorem act_cache (node : Node σ υ) (shift : Shift σ υ) (action : Action υ) :
    (∃ call, action = .cache call ∧
      (shift.act node action).2.cache = (shift.cache.perform call).2) ∨
    (∃ subscriptions, (∀ call, action ≠ .cache call) ∧
      (shift.act node action).2.cache = { shift.cache with subscriptions }) := by
  cases action with
  | subscribe address =>
      obtain ⟨records, subscriptions, h, -⟩ := shift.watcher.subscribe_eq shift.cache address
      refine Or.inr ⟨subscriptions, by simp, ?_⟩
      simp only [act, h, write_eq]
  | unsubscribe address =>
      obtain ⟨result, subscriptions, h⟩ := shift.watcher.unsubscribe_eq shift.cache address
      refine Or.inr ⟨subscriptions, by simp, ?_⟩
      simp only [act, h]
  | cache call => exact Or.inl ⟨call, rfl, rfl⟩
  | close =>
      obtain ⟨stopped, h⟩ := shift.close_eq
      refine Or.inr ⟨shift.cache.subscriptions, by simp, ?_⟩
      simp only [act, h]
  | node update => exact Or.inr ⟨shift.cache.subscriptions, by simp, rfl⟩
  | cancel => exact Or.inr ⟨shift.cache.subscriptions, by simp, rfl⟩
  | dropReceiver => exact Or.inr ⟨shift.cache.subscriptions, by simp, rfl⟩

/-- An action adds only records to the history. -/
theorem act_history (node : Node σ υ) (shift : Shift σ υ) (action : Action υ) :
    ∃ records : List Record,
      (shift.act node action).2.history = records.map Event.recorded ++ shift.history ∧
      ∀ record ∈ records, ∃ address, record = Watcher.subscribedRecord address := by
  cases action with
  | subscribe address =>
      obtain ⟨records, subscriptions, h, hrecords⟩ :=
        shift.watcher.subscribe_eq shift.cache address
      refine ⟨records.reverse, ?_, ?_⟩
      · simp only [act, h, write_eq, List.map_reverse]
      · intro record hrecord
        exact hrecords record (List.mem_reverse.mp hrecord)
  | close =>
      obtain ⟨stopped, h⟩ := shift.close_eq
      refine ⟨[], ?_, by simp⟩
      simp only [act, h, List.map_nil, List.nil_append]
  | unsubscribe address => exact ⟨[], rfl, by simp⟩
  | node update => exact ⟨[], rfl, by simp⟩
  | cache call => exact ⟨[], rfl, by simp⟩
  | cancel => exact ⟨[], rfl, by simp⟩
  | dropReceiver => exact ⟨[], rfl, by simp⟩

theorem act_time (node : Node σ υ) (shift : Shift σ υ) (action : Action υ) :
    (shift.act node action).2.time = shift.time := by
  cases action with
  | subscribe address => simp only [act, write_eq]
  | close =>
      obtain ⟨stopped, h⟩ := shift.close_eq
      simp only [act, h]
  | unsubscribe address => rfl
  | node update => rfl
  | cache call => rfl
  | cancel => rfl
  | dropReceiver => rfl

theorem act_agenda (node : Node σ υ) (shift : Shift σ υ) (agenda : List (Appointment υ))
    (action : Action υ) :
    ({ shift with agenda }.act node action) =
      ((shift.act node action).1, { (shift.act node action).2 with agenda }) := by
  cases action with
  | subscribe address => simp only [act, write_eq]
  | close =>
      simp only [act, close]
      split <;> rfl
  | unsubscribe address => rfl
  | node update => rfl
  | cache call => rfl
  | cancel => rfl
  | dropReceiver => rfl

theorem act_clock (node : Node σ υ) (shift : Shift σ υ) (time : Nat) (action : Action υ) :
    ({ shift with time }.act node action) =
      ((shift.act node action).1, { (shift.act node action).2 with time }) := by
  cases action with
  | subscribe address => simp only [act, write_eq]
  | close =>
      simp only [act, close]
      split <;> rfl
  | unsubscribe address => rfl
  | node update => rfl
  | cache call => rfl
  | cancel => rfl
  | dropReceiver => rfl

end Shift

end BlockWatch
