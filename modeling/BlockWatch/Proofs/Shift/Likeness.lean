import BlockWatch.Proofs.Shift.Resolution
import BlockWatch.Session

/-!
# Work that goes alike

Normative source: SPEC_FULL.md, section 4.3:

    Each poll tick runs `checkNewBlock` then `processNextBlock`, sequentially, never overlapping.

Two shifts can be alike in some way: one may be later than the other, or only one may have somebody
to tell about its blocks.  `Likeness` lists what such a relation must agree on (time up to a delay,
the node, blocks and transactions, the choice of the next block) and what must preserve it, one
field for each thing that an errand does.  Then a look at the head, an attempt and a tick preserve
it too, and what these come to is the same (`Likeness.tick`, `Likeness.run`).

The simulation is written once here and has two instances: `Abreast.likeness`, for shifts that
differ in their subscribers, and `Echoes.likeness`, for shifts that differ in time and in the
handle.
-/

set_option autoImplicit false

namespace BlockWatch

variable {σ υ : Type}

/-- The same flight some time later. -/
def Flight.later (delay : Nat) (flight : Flight) : Flight :=
  { flight with due := flight.due + delay }

/-- A way of being alike, of one shift and another one that is some time later, in which whatever
depends on time, on the node, on the blocks and transactions in the cache or on the blocks that the
watcher remembers is the same. -/
structure Likeness (node : Node σ υ) (delay : Nat) (Alike : Shift σ υ → Shift σ υ → Prop) :
    Prop where
  /-- what they have in common -/
  time {inner outer : Shift σ υ} : Alike inner outer → outer.time = inner.time + delay
  state {inner outer : Shift σ υ} : Alike inner outer → outer.node = inner.node
  block {inner outer : Shift σ υ} : Alike inner outer →
    ∀ number, outer.cache.block number = inner.cache.block number
  transactions {inner outer : Shift σ υ} : Alike inner outer →
    outer.cache.transactions = inner.cache.transactions
  candidate {inner outer : Shift σ υ} : Alike inner outer →
    outer.watcher.candidate outer.cache = inner.watcher.candidate inner.cache
  /-- what happens to both leaves them alike -/
  passUntil {inner outer : Shift σ υ} : Alike inner outer →
    ∀ time, Alike (inner.passUntil node time) (outer.passUntil node (time + delay))
  asked {inner outer : Shift σ υ} : Alike inner outer → ∀ ask,
    Alike (inner.observe (.asked inner.time ask)) (outer.observe (.asked outer.time ask))
  answered {inner outer : Shift σ υ} : Alike inner outer → ∀ ask answer,
    Alike (inner.observe (.answered inner.time ask answer))
      (outer.observe (.answered outer.time ask answer))
  resolving {inner outer : Shift σ υ} : Alike inner outer → ∀ place hash,
    Alike (inner.observe (.resolving inner.time place hash))
      (outer.observe (.resolving outer.time place hash))
  observed {inner outer : Shift σ υ} : Alike inner outer → ∀ result,
    Alike (inner.observe (.observed result)) (outer.observe (.observed result))
  attempted {begun begun' inner outer : Shift σ υ} : Alike begun begun' → Alike inner outer →
    ∀ result, Alike (inner.observe (.attempted begun.snapshot inner.snapshot result))
      (outer.observe (.attempted begun'.snapshot outer.snapshot result))
  write {inner outer : Shift σ υ} : Alike inner outer →
    ∀ records, Alike (inner.write records) (outer.write records)
  turn {inner outer : Shift σ υ} : Alike inner outer →
    ∀ state, Alike { inner with node := state } { outer with node := state }
  addBlock {inner outer : Shift σ υ} : Alike inner outer → ∀ number block,
    Alike { inner with cache := inner.cache.addBlock number block }
      { outer with cache := outer.cache.addBlock number block }
  addTransaction {inner outer : Shift σ υ} : Alike inner outer → ∀ transaction,
    Alike { inner with cache := inner.cache.addTransaction transaction }
      { outer with cache := outer.cache.addTransaction transaction }
  hear {inner outer : Shift σ υ} : Alike inner outer → ∀ head,
    Alike { inner with watcher := { inner.watcher with latest := some head } }
      { outer with watcher := { outer.watcher with latest := some head } }
  /-- a block is marked in both, and then it is the current one, or in neither of them -/
  mark {inner outer : Shift σ υ} : Alike inner outer → ∀ number,
    (∃ failure, inner.cache.markProcessed number = .error failure ∧
      outer.cache.markProcessed number = .error failure) ∨
    ∃ cache cache', inner.cache.markProcessed number = .ok cache ∧
      outer.cache.markProcessed number = .ok cache' ∧
      Alike { inner with cache, watcher := { inner.watcher with current := some number } }
        { outer with cache := cache', watcher := { outer.watcher with current := some number } }
  /-- each may announce it to its own subscribers -/
  announce {begun begun' inner outer : Shift σ υ} : Alike begun begun' → Alike inner outer →
    ∀ number, Alike (inner.spawn [.announce number begun.watcher.subscriptions])
      (outer.spawn [.announce number begun'.watcher.subscriptions])

namespace Likeness

variable {node : Node σ υ} {delay : Nat} {Alike : Shift σ υ → Shift σ υ → Prop}
  (likeness : Likeness node delay Alike) {inner outer : Shift σ υ}

include likeness

/-! ## Questions -/

theorem receive (alike : Alike inner outer) (ask : Ask) :
    (outer.receive node ask).1 = (inner.receive node ask).1 ∧
      Alike (inner.receive node ask).2 (outer.receive node ask).2 := by
  unfold Shift.receive
  rw [likeness.state alike]
  rcases node.answer ask inner.node with ⟨told, state⟩
  exact ⟨rfl, likeness.answered (likeness.turn alike state) ask (told.mapError ask.failure)⟩

theorem ask (alike : Alike inner outer) (ask : Ask) :
    (outer.ask node ask).1 = (inner.ask node ask).1 ∧
      Alike (inner.ask node ask).2 (outer.ask node ask).2 := by
  have hdue : outer.time + node.latency outer.node ask =
      inner.time + node.latency inner.node ask + delay := by
    rw [likeness.time alike, likeness.state alike]
    omega
  unfold Shift.ask
  rw [hdue]
  exact likeness.receive (likeness.passUntil (likeness.asked alike ask) _) ask

theorem observeHead (alike : Alike inner outer) :
    (outer.observeHead node).1 = (inner.observeHead node).1 ∧
      Alike (inner.observeHead node).2 (outer.observeHead node).2 := by
  obtain ⟨hanswer, hasked⟩ := likeness.ask alike .head
  unfold Shift.observeHead Shift.lookAtHead
  rcases hinner : inner.ask node .head with ⟨answer, heard⟩
  rcases houter : outer.ask node .head with ⟨answer', heard'⟩
  rw [hinner, houter] at hanswer hasked
  obtain rfl : answer' = answer := hanswer
  cases answer' with
  | error failure => exact ⟨rfl, likeness.observed hasked (.error failure)⟩
  | ok head =>
      cases hdecode : Quantity.decode head with
      | error failure =>
          simp only [hdecode]
          exact ⟨trivial, likeness.observed hasked (.error failure)⟩
      | ok n =>
          simp only [hdecode]
          exact ⟨trivial, likeness.observed (likeness.hear hasked head) (.ok ())⟩

theorem obtainBlock (alike : Alike inner outer) (number : String) :
    (outer.obtainBlock node number).1 = (inner.obtainBlock node number).1 ∧
      Alike (inner.obtainBlock node number).2 (outer.obtainBlock node number).2 := by
  obtain ⟨hanswer, hasked⟩ := likeness.ask alike (.block number)
  unfold Shift.obtainBlock
  rw [likeness.block alike]
  cases hcached : inner.cache.block number with
  | ok block => exact ⟨rfl, alike⟩
  | error missing =>
      rcases hinner : inner.ask node (.block number) with ⟨answer, told⟩
      rcases houter : outer.ask node (.block number) with ⟨answer', told'⟩
      rw [hinner, houter] at hanswer hasked
      obtain rfl : answer' = answer := hanswer
      cases answer' with
      | error failure => exact ⟨rfl, hasked⟩
      | ok block =>
          have hlearned := likeness.addBlock hasked number block
          exact ⟨likeness.block hlearned number, hlearned⟩

end Likeness

/-! ## Resolutions -/

namespace Resolution

/-- One resolution is like another one that is some time later. -/
structure Alike (delay : Nat) (alike : Shift σ υ → Shift σ υ → Prop)
    (inner outer : Resolution σ υ) : Prop where
  shift : alike inner.shift outer.shift
  flights : outer.flights = inner.flights.map (·.later delay)
  failure : outer.failure = inner.failure

theorem enqueue_later (delay : Nat) (flight : Flight) (flights : List Flight) :
    enqueue (flight.later delay) (flights.map (·.later delay)) =
      (enqueue flight flights).map (·.later delay) := by
  induction flights with
  | nil => rfl
  | cons other rest ih =>
      have hfirst : (flight.later delay).due < (other.later delay).due ↔ flight.due < other.due :=
        Nat.add_lt_add_iff_right
      rw [List.map_cons]
      unfold enqueue
      by_cases h : flight.due < other.due
      · rw [if_pos h, if_pos (hfirst.mpr h)]
        rfl
      · rw [if_neg h, if_neg (mt hfirst.mp h), ih]
        rfl

end Resolution

namespace Likeness

variable {node : Node σ υ} {delay : Nat} {Alike : Shift σ υ → Shift σ υ → Prop}
  (likeness : Likeness node delay Alike)

include likeness

section Resolution

variable {inner outer : Resolution σ υ}

theorem land (alike : Resolution.Alike delay Alike inner outer) (hash : String) :
    Resolution.Alike delay Alike (inner.land node hash) (outer.land node hash) := by
  have hnode := likeness.state alike.shift
  by_cases hcrashes : node.crashes inner.shift.node hash = true
  · rw [Resolution.land_of_crashes hcrashes,
      Resolution.land_of_crashes (hnode.symm ▸ hcrashes), alike.failure]
    exact ⟨likeness.answered alike.shift _ _, alike.flights, rfl⟩
  · rcases htold : node.answer (.transaction hash) inner.shift.node with ⟨told, state⟩
    cases told with
    | ok transaction =>
        rw [Resolution.land_of_ok hcrashes htold,
          Resolution.land_of_ok (hnode.symm ▸ hcrashes) (hnode.symm ▸ htold)]
        exact ⟨likeness.answered (likeness.addTransaction (likeness.turn alike.shift state)
          transaction) _ _, alike.flights, alike.failure⟩
    | error explanation =>
        rw [Resolution.land_of_error hcrashes htold,
          Resolution.land_of_error (hnode.symm ▸ hcrashes) (hnode.symm ▸ htold), alike.failure]
        exact ⟨likeness.answered (likeness.turn alike.shift state) _ _, alike.flights, rfl⟩

theorem await (alike : Resolution.Alike delay Alike inner outer) (flight : Flight) :
    Resolution.Alike delay Alike (inner.await node flight)
      (outer.await node (flight.later delay)) := by
  have hpassed : Resolution.Alike delay Alike
      { inner with shift := inner.shift.passUntil node flight.due }
      { outer with shift := outer.shift.passUntil node (flight.later delay).due } :=
    ⟨likeness.passUntil alike.shift flight.due, alike.flights, alike.failure⟩
  exact likeness.land hpassed flight.hash

theorem landUntil (time : Nat) (flights : List Flight) :
    ∀ {inner outer : Resolution σ υ}, Resolution.Alike delay Alike inner outer →
      Resolution.Alike delay Alike (inner.landUntil node time flights)
        (outer.landUntil node (time + delay) (flights.map (·.later delay))) := by
  induction flights with
  | nil => exact fun alike => ⟨alike.shift, rfl, alike.failure⟩
  | cons flight rest ih =>
      intro inner outer alike
      have hdue : (flight.later delay).due ≤ time + delay ↔ flight.due ≤ time :=
        Nat.add_le_add_iff_right
      rw [List.map_cons]
      unfold Resolution.landUntil
      by_cases h : flight.due ≤ time
      · rw [if_pos h, if_pos (hdue.mpr h)]
        exact ih (likeness.await alike flight)
      · rw [if_neg h, if_neg (mt hdue.mp h)]
        exact ⟨alike.shift, rfl, alike.failure⟩

theorem reach (alike : Resolution.Alike delay Alike inner outer) (time : Nat) :
    Resolution.Alike delay Alike (inner.reach node time) (outer.reach node (time + delay)) := by
  have hlanded := likeness.landUntil time inner.flights alike
  unfold Resolution.reach
  rw [alike.flights]
  exact ⟨likeness.passUntil hlanded.shift time, hlanded.flights, hlanded.failure⟩

theorem start (alike : Resolution.Alike delay Alike inner outer) (place : Nat) (hash : String) :
    Resolution.Alike delay Alike (inner.start node place hash) (outer.start node place hash) := by
  have hcontains : outer.shift.cache.transactions.contains hash =
      inner.shift.cache.transactions.contains hash := by rw [likeness.transactions alike.shift]
  have hresolving := likeness.resolving alike.shift place hash
  by_cases hcached : inner.shift.cache.transactions.contains hash = true
  · rw [Resolution.start_of_cached node place hcached,
      Resolution.start_of_cached node place (hcontains.trans hcached)]
    exact ⟨hresolving, alike.flights, alike.failure⟩
  · have hposed : Resolution.Alike delay Alike (inner.posed place hash) (outer.posed place hash) :=
      ⟨likeness.asked hresolving (.transaction hash), alike.flights, alike.failure⟩
    rw [Resolution.start_of_uncached node place hcached,
      Resolution.start_of_uncached node place (hcontains.symm ▸ hcached),
      likeness.state alike.shift, likeness.time alike.shift]
    split
    · exact likeness.land hposed hash
    · refine ⟨hposed.shift, ?_, alike.failure⟩
      rw [← Resolution.enqueue_later, ← alike.flights, Flight.later, Nat.add_right_comm]

theorem sleep (alike : Resolution.Alike delay Alike inner outer) (span : Nat) :
    Resolution.Alike delay Alike (inner.sleep node span) (outer.sleep node span) := by
  have htime : outer.shift.time + span = inner.shift.time + span + delay := by
    rw [likeness.time alike.shift]
    omega
  unfold Resolution.sleep
  rw [htime]
  exact likeness.reach alike _

theorem pauseAt (alike : Resolution.Alike delay Alike inner outer) (pace : Pace) (place : Nat) :
    Resolution.Alike delay Alike (inner.pauseAt node pace place)
      (outer.pauseAt node pace place) := by
  unfold Resolution.pauseAt
  split
  · exact likeness.sleep alike pace.batchDelay
  · exact alike

theorem startFrom (pace : Pace) (hashes : List String) :
    ∀ (place : Nat) {inner outer : Resolution σ υ}, Resolution.Alike delay Alike inner outer →
      Resolution.Alike delay Alike (inner.startFrom node pace place hashes)
        (outer.startFrom node pace place hashes) := by
  induction hashes with
  | nil => exact fun _ _ _ alike => alike
  | cons hash rest ih =>
      intro place inner outer alike
      exact ih (place + 1) (likeness.start (likeness.pauseAt alike pace place) place hash)

theorem awaitAll (flights : List Flight) :
    ∀ {inner outer : Resolution σ υ}, Resolution.Alike delay Alike inner outer →
      Resolution.Alike delay Alike (flights.foldl (Resolution.await node) inner)
        ((flights.map (·.later delay)).foldl (Resolution.await node) outer) := by
  induction flights with
  | nil => exact fun alike => alike
  | cons flight rest ih => exact fun alike => ih (likeness.await alike flight)

end Resolution

variable {inner outer : Shift σ υ}

theorem resolve (alike : Alike inner outer) (pace : Pace) (hashes : List String) :
    (Resolution.run node pace outer hashes).1 = (Resolution.run node pace inner hashes).1 ∧
      Alike (Resolution.run node pace inner hashes).2
        (Resolution.run node pace outer hashes).2 := by
  have hbegin : Resolution.Alike delay Alike { shift := inner } { shift := outer } :=
    ⟨alike, rfl, rfl⟩
  have hstarted := likeness.startFrom pace hashes 0 hbegin
  have hended := likeness.awaitAll
    (Resolution.startFrom node pace 0 { shift := inner } hashes).flights hstarted
  rw [Resolution.run_eq, Resolution.run_eq]
  rw [← hstarted.flights] at hended
  exact ⟨hended.failure, hended.shift⟩

/-! ## Attempts and ticks -/

theorem processBlock {begun begun' : Shift σ υ} (began : Alike begun begun')
    (alike : Alike inner outer) (pace : Pace) (number : String) :
    (outer.processBlock node pace number begun'.watcher.subscriptions).1 =
        (inner.processBlock node pace number begun.watcher.subscriptions).1 ∧
      Alike (inner.processBlock node pace number begun.watcher.subscriptions).2
        (outer.processBlock node pace number begun'.watcher.subscriptions).2 := by
  obtain ⟨hgot, hobtained⟩ := likeness.obtainBlock alike number
  unfold Shift.processBlock
  rcases hinner : inner.obtainBlock node number with ⟨result, obtained⟩
  rcases houter : outer.obtainBlock node number with ⟨result', obtained'⟩
  rw [hinner, houter] at hgot hobtained
  obtain rfl : result' = result := hgot
  cases result' with
  | error failure => exact ⟨rfl, hobtained⟩
  | ok block =>
      obtain ⟨hfailure, hworked⟩ := likeness.resolve hobtained pace block.transactions
      rcases hinner : Resolution.run node pace obtained block.transactions with ⟨outcome, worked⟩
      rcases houter : Resolution.run node pace obtained' block.transactions
        with ⟨outcome', worked'⟩
      rw [hinner, houter] at hfailure hworked
      obtain rfl : outcome' = outcome := hfailure
      simp only [hinner, houter]
      cases outcome' with
      | some failure => exact ⟨rfl, hworked⟩
      | none =>
          rcases likeness.mark hworked number with ⟨failure, hinner, houter⟩ |
            ⟨cache, cache', hinner, houter, hmarked⟩
          · simp only [hinner, houter]
            exact ⟨trivial, hworked⟩
          · simp only [hinner, houter]
            exact ⟨trivial, likeness.announce began hmarked number⟩

theorem advance (alike : Alike inner outer) (pace : Pace) :
    (outer.advance node pace).1 = (inner.advance node pace).1 ∧
      Alike (inner.advance node pace).2 (outer.advance node pace).2 := by
  unfold Shift.advance
  rw [likeness.candidate alike]
  cases inner.watcher.candidate inner.cache with
  | error failure => exact ⟨rfl, alike⟩
  | ok chosen =>
      cases chosen with
      | none => exact ⟨rfl, alike⟩
      | some number => exact likeness.processBlock alike alike pace number

/-- An attempt has the same result on both sides and leaves them alike. -/
theorem attempt (alike : Alike inner outer) (pace : Pace) :
    (outer.attempt node pace).1 = (inner.attempt node pace).1 ∧
      Alike (inner.attempt node pace).2 (outer.attempt node pace).2 := by
  obtain ⟨hresult, hworked⟩ := likeness.advance alike pace
  unfold Shift.attempt
  rcases hinner : inner.advance node pace with ⟨result, worked⟩
  rcases houter : outer.advance node pace with ⟨result', worked'⟩
  rw [hinner, houter] at hresult hworked
  obtain rfl : result' = result := hresult
  exact ⟨rfl, likeness.attempted alike hworked result'⟩

theorem tick (alike : Alike inner outer) (pace : Pace) :
    Alike (inner.tick node pace) (outer.tick node pace) := by
  obtain ⟨hseen, hobserved⟩ := likeness.observeHead alike
  unfold Shift.tick
  rcases hinner : inner.observeHead node with ⟨seen, observed⟩
  rcases houter : outer.observeHead node with ⟨seen', observed'⟩
  rw [hinner, houter] at hseen hobserved
  obtain rfl : seen' = seen := hseen
  obtain ⟨hdone, hattempted⟩ :=
    likeness.attempt (likeness.write hobserved (Shift.headRecords seen')) pace
  dsimp only
  rw [hdone]
  exact likeness.write hattempted _

/-- Any errand but a loop has the same result on both sides and leaves them alike. -/
theorem run (alike : Alike inner outer) (pace : Pace) {errand : Errand}
    (brief : ∀ cancelled, errand ≠ .listen cancelled) :
    (Session.run node pace outer errand).1 = (Session.run node pace inner errand).1 ∧
      Alike (Session.run node pace inner errand).2 (Session.run node pace outer errand).2 := by
  cases errand with
  | observe =>
      obtain ⟨hresult, hobserved⟩ := likeness.observeHead alike
      exact ⟨congrArg Outcome.observed hresult, hobserved⟩
  | attempt =>
      obtain ⟨hresult, hattempted⟩ := likeness.attempt alike pace
      exact ⟨congrArg Outcome.attempted hresult, hattempted⟩
  | tick => exact ⟨rfl, likeness.tick alike pace⟩
  | listen cancelled => exact absurd rfl (brief cancelled)

end Likeness

end BlockWatch
