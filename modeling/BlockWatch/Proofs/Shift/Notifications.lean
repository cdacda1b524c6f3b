import BlockWatch.Proofs.Buckets
import BlockWatch.Proofs.Shift.Actions
import BlockWatch.Shift.Attempt

/-!
# What tasks come to

Normative source: SPEC_FULL.md, section 4.3, `notifyForBlock`, and section 5:

    short-lived concurrent tasks are spawned only for (a) per-transaction resolution within a batch,
    and (b) per-subscriber notification dispatch.

What is observed of a task depends on the cache and the outlet alone (`Task.tidings`), and so do the
tasks that it starts (`Task.started`).  Neither of them changes while tasks run, so running a list
of tasks appends what is observed of them one after the other (`runTasks_eq`).  An announcement
starts deliveries only and a delivery starts nothing, therefore `Shift.settle` leaves the queue
empty (`settle_eq`).

If the queue holds announcements and the channel has its receiver, then `announcements_of_queued`
and `notifications_of_queued` say what comes of them: every announcement is made from the cache as
it is at that moment, in the order of the queue, and its subscribers get one notification each.  The
notification holds the transactions of the block that the cache has and that involve the subscriber.
This needs that no address is subscribed twice, since its bucket is given away once.
-/

set_option autoImplicit false

namespace BlockWatch

variable {σ υ : Type}

/-- What comes of tasks: an announcement, a notification that reached its receiver, or a record. -/
def Event.IsTiding : Event → Prop
  | .announced _ _ | .notified _ | .recorded _ => True
  | _ => False

/-- The block that was announced, and the cache at that moment. -/
def Event.announcement? : Event → Option (String × Cache)
  | .announced number cache => some (number, cache)
  | _ => none

/-- What an address should be told about transactions. -/
def Notification.about (transactions : List Transaction) (address : String) : Notification :=
  ⟨address, transactions.filter (·.involves address)⟩

theorem Event.isTiding_of_mem_records {records : List Record} :
    ∀ event ∈ (records.map Event.recorded).reverse, event.IsTiding := by
  intro event hevent
  obtain ⟨record, -, rfl⟩ := List.mem_map.mp (List.mem_reverse.mp hevent)
  trivial

/-- A view that shows nothing of the three kinds of tidings shows nothing of tidings. -/
theorem Event.filterMap_of_tidings {β : Type} {view : Event → Option β}
    (announced : ∀ number cache, view (.announced number cache) = none)
    (notified : ∀ notification, view (.notified notification) = none)
    (recorded : ∀ record, view (.recorded record) = none) {events : List Event}
    (tidings : ∀ event ∈ events, event.IsTiding) : events.filterMap view = [] := by
  rw [List.filterMap_eq_nil_iff]
  intro event hevent
  cases event with
  | announced number cache => exact announced number cache
  | notified notification => exact notified notification
  | recorded record => exact recorded record
  | _ => exact (tidings _ hevent).elim

namespace Task

/-! ## One task -/

/-- The records that the announcement of a block writes. -/
def complaints (cache : Cache) (number : String) : List Record :=
  match cache.block number with
  | .error failure => [Shift.lackingBlockRecord number failure]
  | .ok block => Shift.lackingRecords cache block

/-- What is observed of a task, oldest first. -/
def tidings (cache : Cache) (outlet : Outlet) : Task → List Event
  | .announce number _ => .announced number cache :: (complaints cache number).map .recorded
  | .deliver notification =>
      (outlet.deliver notification).received.map .notified ++
        (outlet.deliver notification).records.map .recorded

/-- The tasks that a task starts. -/
def started (cache : Cache) : Task → List Task
  | .announce number subscribers =>
      match cache.block number with
      | .error _ => []
      | .ok block => deliveries (Buckets.ofList (Shift.blockTransactions cache block)) subscribers
  | .deliver _ => []

theorem isTiding_of_mem_tidings {cache : Cache} {outlet : Outlet} {task : Task} :
    ∀ event ∈ task.tidings cache outlet, event.IsTiding := by
  intro event hevent
  cases task with
  | announce number subscribers =>
      rcases List.mem_cons.mp hevent with rfl | hevent
      · trivial
      · obtain ⟨record, -, rfl⟩ := List.mem_map.mp hevent
        trivial
  | deliver notification =>
      rcases List.mem_append.mp hevent with hevent | hevent
      · obtain ⟨received, -, rfl⟩ := List.mem_map.mp hevent
        trivial
      · obtain ⟨record, -, rfl⟩ := List.mem_map.mp hevent
        trivial

theorem started_deliveries (cache : Cache) (subscribers : List String) :
    ∀ buckets : Table (List Transaction),
      (deliveries buckets subscribers).flatMap (started cache) = [] := by
  induction subscribers with
  | nil => exact fun _ => rfl
  | cons address rest ih => exact fun buckets => ih (buckets.erase address)

/-- A started task starts nothing. -/
theorem started_started (cache : Cache) (task : Task) :
    (task.started cache).flatMap (started cache) = [] := by
  cases task with
  | deliver notification => rfl
  | announce number subscribers =>
      cases hblock : cache.block number with
      | error failure => simp only [started, hblock, List.flatMap_nil]
      | ok block =>
          have hstarted : (announce number subscribers).started cache =
              deliveries (Buckets.ofList (Shift.blockTransactions cache block)) subscribers := by
            simp only [started, hblock]
          rw [hstarted, started_deliveries]

/-- A subscriber that occurs once gets the bucket of its address. -/
theorem deliveries_eq {subscribers : List String} (nodup : subscribers.Nodup) :
    ∀ buckets : Table (List Transaction),
      deliveries buckets subscribers =
        subscribers.map fun address => .deliver ⟨address, Buckets.get buckets address⟩ := by
  induction subscribers with
  | nil => exact fun _ => rfl
  | cons address rest ih =>
      intro buckets
      obtain ⟨hnotMem, hrest⟩ := List.nodup_cons.mp nodup
      rw [deliveries, ih hrest, List.map_cons]
      congr 1
      apply List.map_congr_left
      intro other hother
      have hne : other ≠ address := fun heq => hnotMem (heq ▸ hother)
      rw [Buckets.get_erase_of_ne buckets hne]

end Task

/-- What is observed when the queue of a watcher is run, oldest first: first the tasks in it, and
then those that they start. -/
def Watcher.tidings (watcher : Watcher) (cache : Cache) : List Event :=
  watcher.tasks.flatMap (Task.tidings cache watcher.outlet) ++
    (watcher.tasks.flatMap (Task.started cache)).flatMap (Task.tidings cache watcher.outlet)

theorem Watcher.isTiding_of_mem_tidings {watcher : Watcher} {cache : Cache} :
    ∀ event ∈ watcher.tidings cache, event.IsTiding := by
  intro event hevent
  rcases List.mem_append.mp hevent with hevent | hevent <;>
    obtain ⟨task, -, hevent⟩ := List.mem_flatMap.mp hevent <;>
    exact Task.isTiding_of_mem_tidings event hevent

namespace Shift

/-! ## Running the queue -/

theorem foldl_notified (received : List Notification) :
    ∀ shift : Shift σ υ,
      received.foldl (fun shift received => shift.observe (.notified received)) shift =
        { shift with history := (received.map Event.notified).reverse ++ shift.history } := by
  induction received with
  | nil => exact fun _ => rfl
  | cons first rest ih =>
      intro shift
      rw [List.foldl_cons, ih, List.map_cons, List.reverse_cons, List.append_assoc]
      rfl

/-- Step lemma: a task extends the history and the queue. -/
theorem runTask_eq (shift : Shift σ υ) (task : Task) :
    shift.runTask task =
      { shift with
        history := (task.tidings shift.cache shift.watcher.outlet).reverse ++ shift.history
        watcher := { shift.watcher with
          tasks := shift.watcher.tasks ++ task.started shift.cache } } := by
  cases task with
  | deliver notification =>
      simp only [runTask, notify, foldl_notified, write_eq, Task.tidings, Task.started,
        List.reverse_append, List.append_assoc, List.append_nil]
  | announce number subscribers =>
      simp only [runTask, announce, observe, Task.tidings, Task.started, Task.complaints]
      cases shift.cache.block number with
      | error failure =>
          simp only [write_eq, List.reverse_cons, List.append_assoc, List.append_nil]
          rfl
      | ok block =>
          simp only [write_eq, spawn, List.reverse_cons, List.append_assoc]
          rfl

/-- Run lemma: tasks run one after the other, with one cache and one outlet. -/
theorem runTasks_eq (tasks : List Task) :
    ∀ shift : Shift σ υ, tasks.foldl runTask shift =
      { shift with
        history :=
          (tasks.flatMap (Task.tidings shift.cache shift.watcher.outlet)).reverse ++ shift.history
        watcher := { shift.watcher with
          tasks := shift.watcher.tasks ++ tasks.flatMap (Task.started shift.cache) } } := by
  induction tasks with
  | nil =>
      intro shift
      simp only [List.foldl_nil, List.flatMap_nil, List.reverse_nil, List.nil_append,
        List.append_nil]
  | cons task rest ih =>
      intro shift
      rw [List.foldl_cons, ih, runTask_eq]
      simp only [List.flatMap_cons, List.reverse_append, List.append_assoc]

theorem runQueued_eq (shift : Shift σ υ) :
    shift.runQueued =
      { shift with
        history :=
          (shift.watcher.tasks.flatMap
            (Task.tidings shift.cache shift.watcher.outlet)).reverse ++ shift.history
        watcher := { shift.watcher with
          tasks := shift.watcher.tasks.flatMap (Task.started shift.cache) } } := by
  rw [runQueued, runTasks_eq]
  rfl

/-- Two rounds empty the queue, and otherwise only the history changes. -/
theorem settle_eq (shift : Shift σ υ) :
    shift.settle =
      { shift with
        history := (shift.watcher.tidings shift.cache).reverse ++ shift.history
        watcher := { shift.watcher with tasks := [] } } := by
  have hnone : (shift.watcher.tasks.flatMap (Task.started shift.cache)).flatMap
      (Task.started shift.cache) = [] := by
    rw [List.flatMap_assoc, List.flatMap_eq_nil_iff]
    exact fun task _ => Task.started_started shift.cache task
  rw [settle, runQueued_eq, runQueued_eq]
  simp only [hnone, Watcher.tidings, List.reverse_append, List.append_assoc]

/-- Running the queue adds only tidings to the history. -/
theorem settle_told (shift : Shift σ υ) :
    ∃ told,
      shift.settle =
          { shift with
            history := told ++ shift.history
            watcher := { shift.watcher with tasks := [] } } ∧
        ∀ event ∈ told, event.IsTiding :=
  ⟨_, settle_eq shift, fun event h =>
    Watcher.isTiding_of_mem_tidings event (List.mem_reverse.mp h)⟩

theorem settle_of_idle {shift : Shift σ υ} (idle : shift.watcher.tasks = []) :
    shift.settle = shift := by
  have hwatcher : { shift.watcher with tasks := [] } = shift.watcher := by rw [← idle]
  rw [settle_eq, hwatcher, Watcher.tidings, idle]
  rfl

theorem settle_agenda (shift : Shift σ υ) (agenda : List (Appointment υ)) :
    { shift with agenda }.settle = { shift.settle with agenda } := by
  rw [settle_eq, settle_eq]

end Shift

/-! ## Announcements through an open channel -/

/-- What subscribers should be told about a block that is announced from a cache. -/
def Cache.owed (cache : Cache) (number : String) (subscribers : List String) : List Notification :=
  match cache.block number with
  | .error _ => []
  | .ok block => subscribers.map (Notification.about (Shift.blockTransactions cache block))

namespace Task

/-- An announcement starts one delivery for each subscriber, with what it is owed. -/
theorem started_announce (cache : Cache) (number : String) {subscribers : List String}
    (nodup : subscribers.Nodup) :
    (announce number subscribers).started cache =
      (cache.owed number subscribers).map .deliver := by
  cases hblock : cache.block number with
  | error failure => simp only [started, Cache.owed, hblock, List.map_nil]
  | ok block =>
      simp only [started, Cache.owed, hblock, deliveries_eq nodup, List.map_map, Buckets.get_ofList]
      rfl

/-- An open channel passes exactly the notifications on. -/
theorem tidings_deliver (cache : Cache) (notifications : List Notification) :
    (notifications.map deliver).flatMap (tidings cache (.channel true)) =
      notifications.map .notified := by
  induction notifications with
  | nil => rfl
  | cons notification rest ih =>
      rw [List.map_cons, List.flatMap_cons, ih]
      rfl

theorem filterMap_tidings_announce {β : Type} {view : Event → Option β}
    (records : ∀ record, view (.recorded record) = none) (cache : Cache) (outlet : Outlet)
    (number : String) (subscribers : List String) :
    ((announce number subscribers).tidings cache outlet).filterMap view =
      (view (.announced number cache)).toList := by
  rw [tidings, ← List.singleton_append, List.filterMap_append, Event.filterMap_recorded records,
    List.append_nil]
  cases hview : view (.announced number cache) with
  | none => rw [List.filterMap_cons_none hview]; rfl
  | some value => rw [List.filterMap_cons_some hview]; rfl

end Task

namespace Watcher

variable {watcher : Watcher} {pending : List (String × List String)}

theorem started_of_queued (cache : Cache)
    (queued : watcher.tasks = pending.map fun block => .announce block.1 block.2)
    (nodup : ∀ block ∈ pending, block.2.Nodup) :
    watcher.tasks.flatMap (Task.started cache) =
      (pending.flatMap fun block => cache.owed block.1 block.2).map .deliver := by
  rw [queued, List.flatMap_map, List.map_flatMap]
  exact List.flatMap_congr fun block hblock =>
    Task.started_announce cache block.1 (nodup block hblock)

/-- Announcements are made in the order of the queue, all from the cache as it is now. -/
theorem announcements_of_queued (cache : Cache)
    (queued : watcher.tasks = pending.map fun block => .announce block.1 block.2)
    (nodup : ∀ block ∈ pending, block.2.Nodup) (receiving : watcher.outlet = .channel true) :
    (watcher.tidings cache).filterMap Event.announcement? =
      pending.map fun block => (block.1, cache) := by
  have hdelivered : ∀ notifications : List Notification,
      (notifications.map Event.notified).filterMap Event.announcement? = [] := by
    intro notifications
    rw [List.filterMap_map]
    simp [Function.comp_def, Event.announcement?]
  rw [tidings, started_of_queued cache queued nodup, receiving, Task.tidings_deliver,
    List.filterMap_append, hdelivered, List.append_nil, queued, List.flatMap_map,
    List.filterMap_flatMap, List.map_eq_flatMap]
  exact List.flatMap_congr fun block _ =>
    Task.filterMap_tidings_announce (fun _ => rfl) cache _ block.1 block.2

/-- Notifications come in the order of the queue, to each subscriber what it is owed. -/
theorem notifications_of_queued (cache : Cache)
    (queued : watcher.tasks = pending.map fun block => .announce block.1 block.2)
    (nodup : ∀ block ∈ pending, block.2.Nodup) (receiving : watcher.outlet = .channel true) :
    (watcher.tidings cache).filterMap Event.notification? =
      pending.flatMap fun block => cache.owed block.1 block.2 := by
  have hannounced : (watcher.tasks.flatMap (Task.tidings cache (.channel true))).filterMap
      Event.notification? = [] := by
    rw [queued, List.flatMap_map, List.filterMap_flatMap, List.flatMap_eq_nil_iff]
    exact fun block _ =>
      Task.filterMap_tidings_announce (fun _ => rfl) cache _ block.1 block.2
  rw [tidings, started_of_queued cache queued nodup, receiving, Task.tidings_deliver,
    List.filterMap_append, hannounced, List.nil_append, List.filterMap_map]
  simp [Function.comp_def, Event.notification?]

end Watcher

end BlockWatch
