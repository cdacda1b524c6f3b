import BlockWatch.Proofs.Session.Soundness
import BlockWatch.Proofs.Shift.Subscriptions

/-!
# Subscriptions in a session

Normative source: SPEC_FULL.md, section 10.7:

    `subscribe`/`unsubscribe` are serialized so the Watcher and Cache subscription sets always
    agree.
    `unsubscribe(address)`: removes from both Watcher and Cache; absent address →
    `AddressNotFound`.

The changes that were asked for during a run are a log (`changeLog`).  `stands_throughout` says at
every moment of every run, also in the midst of work, what the rosters are: that of a watcher is
what stands of its own changes, that of the cache what stands of the changes that took effect with
their watchers.

`subscriptions_agree` is the case of a cache that belongs to one watcher: the two rosters are equal.
In a cache that is shared one watcher may have taken away what another one still has, and just then
unsubscribing fails and leaves something behind: `unsubscribe_atomic_iff`, with a run in
`unsubscribe_fails_halfway`.
-/

set_option autoImplicit false

namespace BlockWatch

variable {σ υ : Type}

/-! ## Changes in a run -/

/-- The changes that steps ask of watchers that are there, each with the place of its watcher. -/
def changeLog (watchers : Nat) (steps : List (Step υ)) : List (Nat × Change) :=
  (steps.filter (·.watcher < watchers)).flatMap fun step =>
    (changesOf step.schedule).map (step.watcher, ·)

theorem changeLog_of_absent {watchers : Nat} {step : Step υ} (rest : List (Step υ))
    (h : ¬ step.watcher < watchers) :
    changeLog watchers (step :: rest) = changeLog watchers rest := by
  rw [changeLog, List.filter_cons_of_neg (by simpa using h)]
  rfl

theorem changeLog_of_present {watchers : Nat} {step : Step υ} (rest : List (Step υ))
    (h : step.watcher < watchers) :
    changeLog watchers (step :: rest) =
      (changesOf step.schedule).map (step.watcher, ·) ++ changeLog watchers rest := by
  rw [changeLog, List.filter_cons_of_pos (by simpa using h), List.flatMap_cons]
  rfl

theorem changesAt_append_ne (log : List (Nat × Change)) {place other : Nat} (h : other ≠ place)
    (changes : List Change) :
    changesAt place (log ++ changes.map (other, ·)) = changesAt place log := by
  have hnone : (changes.map (other, ·)).filter (·.1 = place) = [] := by
    rw [List.filter_eq_nil_iff]
    intro entry hentry
    obtain ⟨change, -, rfl⟩ := List.mem_map.mp hentry
    simpa using h
  rw [changesAt, List.filter_append, hnone, List.append_nil]
  rfl

theorem changesAt_append_self (log : List (Nat × Change)) (place : Nat) (changes : List Change) :
    changesAt place (log ++ changes.map (place, ·)) = changesAt place log ++ changes := by
  simp [changesAt, List.filter_map, Function.comp_def]

theorem changeLog_one (steps : List (Step υ)) :
    (changesAt 0 (changeLog 1 steps)).map (0, ·) = changeLog 1 steps := by
  induction steps with
  | nil => rfl
  | cons step rest ih =>
      by_cases h : step.watcher < 1
      · have hzero : step.watcher = 0 := by omega
        rw [changeLog_of_present rest h, hzero]
        simp only [changesAt, List.filter_append, List.map_append, List.map_map] at ih ⊢
        rw [ih]
        simp [List.filter_map, Function.comp_def]
      · rw [changeLog_of_absent rest h, ih]

theorem canonical_of_mem_changesOf {actions : List (Action υ)} {address : String}
    (h : .subscribe address ∈ changesOf actions) : Address.canonical address = address := by
  obtain ⟨action, -, hchange⟩ := List.mem_filterMap.mp h
  cases action with
  | subscribe given =>
      cases hchange
      exact Address.canonical_idem given
  | unsubscribe given => cases hchange
  | node update => cases hchange
  | cache call => cases hchange
  | close => cases hchange
  | cancel => cases hchange
  | dropReceiver => cases hchange

theorem canonical_of_mem_changeLog {watchers place : Nat} {steps : List (Step υ)} {address : String}
    (h : (place, .subscribe address) ∈ changeLog watchers steps) :
    Address.canonical address = address := by
  obtain ⟨step, -, hstep⟩ := List.mem_flatMap.mp h
  obtain ⟨change, hchange, hentry⟩ := List.mem_map.mp hstep
  cases hentry
  exact canonical_of_mem_changesOf hchange

namespace Session

/-! ## The invariant -/

/-- The rosters of a session are what stands of a log. -/
structure Stands (session : Session σ) (log : List (Nat × Change)) : Prop where
  watchers : ∀ place watcher, session.watchers[place]? = some watcher →
    watcher.subscriptions = standing (changesAt place log)
  cache : session.cache.subscriptions = standing (effective log)

/-- A shift through which the watcher at a place can come, after some actions were done in it. -/
def AmidAfter (node : Node σ υ) (session : Session σ) (place : Nat) (done : List (Action υ))
    (shift : Shift σ υ) : Prop :=
  ∃ watcher agenda, session.watchers[place]? = some watcher ∧
    agenda.map (·.action) = done ++ shift.agenda.map (·.action) ∧
    Shift.Strides node session.pace
      { node := session.node, cache := session.cache, watcher, agenda } shift

theorem stands_new (settings : Settings) (state : σ) (watchers : Nat) :
    (new settings state watchers).Stands [] where
  watchers _ _ h := List.eq_of_mem_replicate (List.mem_of_getElem? h) ▸ rfl
  cache := rfl

/-- Preserved in the midst of the work of a watcher, by the actions done so far. -/
theorem Stands.amid {node : Node σ υ} {session : Session σ} {log : List (Nat × Change)}
    (stands : session.Stands log) {place : Nat} {done : List (Action υ)} {shift : Shift σ υ}
    (hshift : session.AmidAfter node place done shift)
    (hdone : ∀ action ∈ done, ¬ action.IsDirect) :
    shift.rosters.Stand place (log ++ (changesOf done).map (place, ·)) := by
  obtain ⟨watcher, agenda, hwatcher, hagenda, hstrides⟩ := hshift
  obtain ⟨others, hsettles⟩ := Shift.Settles.of_strides hstrides
  have hsame : others = done := List.append_cancel_right (hsettles.agenda.symm.trans hagenda)
  rw [hsettles.rosters (hsame ▸ hdone), hsame]
  exact Rosters.Stand.enactAll _ ⟨stands.watchers place watcher hwatcher, stands.cache⟩

/-- Run lemma. -/
theorem Stands.play (node : Node σ υ) (steps : List (Step υ)) :
    ∀ {session : Session σ} {log : List (Nat × Change)}, session.Stands log →
      (∀ step ∈ steps, ∀ action ∈ step.actions, ¬ action.IsDirect) →
      (session.play node steps).2.Stands (log ++ changeLog session.watchers.length steps) := by
  induction steps with
  | nil =>
      intro session log stands _
      simpa [Session.play, changeLog] using stands
  | cons step rest ih =>
      intro session log stands hsteps
      have hrest : ∀ step ∈ rest, ∀ action ∈ step.actions, ¬ action.IsDirect :=
        fun other hother => hsteps other (List.mem_cons_of_mem step hother)
      cases hwatcher : session.watchers[step.watcher]? with
      | none =>
          have habsent : ¬ step.watcher < session.watchers.length :=
            Nat.not_lt.mpr (List.getElem?_eq_none_iff.mp hwatcher)
          rw [play_of_absent node rest hwatcher, changeLog_of_absent rest habsent]
          exact ih stands hrest
      | some watcher =>
          have hpresent := (List.getElem?_eq_some_iff.mp hwatcher).1
          obtain ⟨agenda, last, report, hstep, -, hagenda, hlast, hlegs, -⟩ :=
            step_told node hwatcher
          have hdone : session.AmidAfter node step.watcher step.schedule last := by
            refine ⟨watcher, agenda, hwatcher, ?_, hlegs.strides⟩
            rw [hlast, hagenda, List.map_nil, List.append_nil]
          have hstand := stands.amid hdone fun action haction =>
            hsteps step List.mem_cons_self action (Step.mem_actions_of_mem_schedule haction)
          have hafter : (session.absorb step.watcher last).Stands
              (log ++ (changesOf step.schedule).map (step.watcher, ·)) := by
            refine ⟨?_, hstand.shared⟩
            intro place other hother
            by_cases hplace : place = step.watcher
            · rw [hplace, watchers_absorb_self hwatcher] at hother
              cases hother
              exact hplace ▸ hstand.own
            · rw [watchers_absorb_ne session hplace] at hother
              rw [changesAt_append_ne log (Ne.symm hplace)]
              exact stands.watchers place other hother
          have hlength : (session.absorb step.watcher last).watchers.length =
              session.watchers.length := List.length_set
          rw [play_of_present node rest hstep, changeLog_of_present rest hpresent,
            ← List.append_assoc, ← hlength]
          exact ih hafter hrest

theorem stands_throughout (settings : Settings) (node : Node σ υ) (state : σ) (watchers : Nat)
    {steps : List (Step υ)} (hsteps : ∀ step ∈ steps, ∀ action ∈ step.actions, ¬ action.IsDirect)
    {place : Nat} {done : List (Action υ)} {shift : Shift σ υ}
    (hshift : ((new settings state watchers).play node steps).2.AmidAfter node place done shift)
    (hdone : ∀ action ∈ done, ¬ action.IsDirect) :
    shift.rosters.Stand place
      (changeLog watchers steps ++ (changesOf done).map (place, ·)) := by
  have hplayed := Stands.play node steps (stands_new settings state watchers) hsteps
  rw [List.nil_append, show (new settings state watchers).watchers.length = watchers from
    List.length_replicate] at hplayed
  exact hplayed.amid hshift hdone

/-! ## A cache of one's own -/

/-- A watcher with a cache of its own, at every moment of every run in which nobody subscribes or
unsubscribes with the cache directly: both have the same roster.  It holds the addresses that were
subscribed and not unsubscribed since, in canonical spelling, each once, in the order of the
subscriptions that put them in; and unsubscribing fails exactly at an address that is not in it. -/
theorem subscriptions_agree (settings : Settings) (node : Node σ υ) (state : σ)
    (steps : List (Step υ)) (hsteps : ∀ step ∈ steps, ∀ action ∈ step.actions, ¬ action.IsDirect)
    {done : List (Action υ)} {shift : Shift σ υ}
    (hshift : ((new settings state 1).play node steps).2.AmidAfter node 0 done shift)
    (hdone : ∀ action ∈ done, ¬ action.IsDirect) (address : String) :
    let roster := standing (changesAt 0 (changeLog 1 steps) ++ changesOf done)
    shift.watcher.subscriptions = roster ∧ shift.cache.subscriptions = roster ∧
      (∀ entry ∈ roster, Address.canonical entry = entry) ∧ roster.Nodup ∧
      (shift.act node (.unsubscribe address)).1 =
        if Address.canonical address ∈ roster then .ok .done
        else .error (.addressNotFound (Address.canonical address)) := by
  intro roster
  have hstand := stands_throughout settings node state 1 hsteps hshift hdone
  have hown : shift.watcher.subscriptions = roster :=
    hstand.own.trans (by rw [changesAt_append_self])
  have hshared : shift.cache.subscriptions = roster := by
    refine hstand.shared.trans ?_
    rw [← changeLog_one steps, ← List.map_append, standing_effective_of_single]
  refine ⟨hown, hshared, ?_, nodup_standing _, ?_⟩
  · intro entry hentry
    obtain ⟨early, late, hsplit, -⟩ := mem_standing.mp hentry
    have hasked : .subscribe entry ∈ changesAt 0 (changeLog 1 steps) ++ changesOf done := by
      rw [hsplit]
      exact List.mem_append_right early List.mem_cons_self
    rcases List.mem_append.mp hasked with hlogged | hnow
    · obtain ⟨⟨place, change⟩, hmem, rfl⟩ := List.mem_map.mp hlogged
      exact canonical_of_mem_changeLog (List.mem_of_mem_filter hmem)
    · exact canonical_of_mem_changesOf hnow
  · rw [Shift.act_unsubscribe, hown, hshared]
    simp only [and_self]

/-- A watcher has subscribed two addresses, the first one in two spellings, and is at work. -/
def subscribedTwice : List (Step Script.Update) :=
  [.act 0 (.subscribe "0x00a"), .act 0 (.subscribe "0xa"),
    .work 0 .tick [(0, .unsubscribe "0xc"), (1, .subscribe "b")]]

/-- In the next look at the head, before the answer is there, the first address goes and comes
again. -/
theorem subscriptions_agree_midway :
    ∃ shift : Shift Script Script.Update,
      ((new {} twoBlocks 1).play Script.node subscribedTwice).2.AmidAfter Script.node 0
          [.unsubscribe "0x0a", .subscribe "a"] shift ∧
        shift.watcher.subscriptions = ["0xb", "0xa"] ∧
        shift.cache.subscriptions = ["0xb", "0xa"] ∧
        (shift.act Script.node (.unsubscribe "0x00b")).1 = .ok .done ∧
        (shift.act Script.node (.unsubscribe "0x0")).1 = .error (.addressNotFound "0x") := by
  have hpresent : ((new {} twoBlocks 1).play Script.node subscribedTwice).2.watchers[0]? =
      some { subscriptions := ["0xa", "0xb"], current := some "0x5", latest := some "0x5" } := by
    cbv
  have hsteps : ∀ step ∈ subscribedTwice, ∀ action ∈ step.actions, ¬ action.IsDirect := by
    simp [subscribedTwice, Step.actions, Action.IsDirect]
  have hamid : ((new {} twoBlocks 1).play Script.node subscribedTwice).2.AmidAfter Script.node 0
      [.unsubscribe "0x0a", .subscribe "a"] _ :=
    ⟨_, [⟨0, 1, .unsubscribe "0x0a"⟩, ⟨1, 2, .subscribe "a"⟩], hpresent, rfl,
      .tail (.tail (.single (.move (.ask .head))) (.move (.keep rfl))) (.move (.keep rfl))⟩
  have hdone : ∀ action ∈ [Action.unsubscribe "0x0a", .subscribe "a"],
      ¬ (action : Action Script.Update).IsDirect := by
    simp [Action.IsDirect]
  have hroster : standing (changesAt 0 (changeLog 1 subscribedTwice) ++
      changesOf [Action.unsubscribe "0x0a", (.subscribe "a" : Action Script.Update)]) =
        ["0xb", "0xa"] := by cbv
  have hheld := subscriptions_agree {} Script.node twoBlocks subscribedTwice hsteps hamid hdone
    "0x00b"
  have hlacking := subscriptions_agree {} Script.node twoBlocks subscribedTwice hsteps hamid hdone
    "0x0"
  simp only [hroster] at hheld hlacking
  exact ⟨_, hamid, hheld.1, hheld.2.1, hheld.2.2.2.2, hlacking.2.2.2.2⟩

/-! ## A shared cache -/

/-- At every moment of every run of watchers on one cache in which nobody subscribes or unsubscribes
with the cache directly: the roster of a watcher is what stands of its own changes, and that of the
cache what stands of the changes that took effect with their watchers.  Unsubscribing an address is
all or nothing exactly when the cache has the address in case the watcher has it.  Where the cache
lacks it, the address is gone from the watcher and yet it is said not to be there.  Nobody can take
it from a cache that belongs to one watcher. -/
theorem unsubscribe_atomic_iff (settings : Settings) (node : Node σ υ) (state : σ) (watchers : Nat)
    (steps : List (Step υ)) (hsteps : ∀ step ∈ steps, ∀ action ∈ step.actions, ¬ action.IsDirect)
    (place : Nat) {done : List (Action υ)} {shift : Shift σ υ}
    (hshift : ((new settings state watchers).play node steps).2.AmidAfter node place done shift)
    (hdone : ∀ action ∈ done, ¬ action.IsDirect) (address : String) :
    let log := changeLog watchers steps ++ (changesOf done).map (place, ·)
    let own := standing (changesAt place log)
    let shared := standing (effective log)
    shift.rosters = ⟨own, shared⟩ ∧
      (shift.UnsubscribesAtomically node address ↔
        (Address.canonical address ∈ own → Address.canonical address ∈ shared)) ∧
      (Address.canonical address ∈ own → Address.canonical address ∉ shared →
        (shift.act node (.unsubscribe address)).1 =
            .error (.addressNotFound (Address.canonical address)) ∧
          (shift.act node (.unsubscribe address)).2.rosters =
            ⟨own.erase (Address.canonical address), shared⟩) ∧
      (watchers = 1 → shift.UnsubscribesAtomically node address) := by
  intro log own shared
  have hstand : shift.rosters.Stand place log :=
    stands_throughout settings node state watchers hsteps hshift hdone
  have hown : shift.watcher.subscriptions = own := hstand.own
  have hshared : shift.cache.subscriptions = shared := hstand.shared
  have hatomic := shift.unsubscribesAtomically_iff node address
  rw [hown, hshared] at hatomic
  refine ⟨congrArg₂ Rosters.mk hown hshared, hatomic, ?_, ?_⟩
  · intro hhas hlacks
    rw [← hown] at hhas ⊢
    rw [← hshared] at hlacks ⊢
    simp only [Shift.act, shift.watcher.unsubscribe_of_not_shared shift.cache hhas hlacks]
    exact ⟨rfl, rfl⟩
  · rintro rfl
    rw [hatomic]
    obtain ⟨watcher, -, hwatcher, -⟩ := hshift
    have hbound := (List.getElem?_eq_some_iff.mp hwatcher).1
    rw [length_play, show (new settings state 1).watchers.length = 1 from rfl] at hbound
    obtain rfl : place = 0 := by omega
    -- all changes are those of this watcher, so what stands is the same for both
    have hsame : shared = own := by
      show standing (effective (changeLog 1 steps ++ _)) = standing (changesAt 0 (_ ++ _))
      rw [changesAt_append_self, ← changeLog_one steps, ← List.map_append,
        standing_effective_of_single, changeLog_one]
    exact fun h => hsame ▸ h

/-- Two watchers subscribe the same address with the cache that they share, and the first one
unsubscribes it. -/
def takenAway : List (Step Script.Update) :=
  [.act 0 (.subscribe "0xa"), .act 1 (.subscribe "0x0a"), .act 0 (.unsubscribe "0xa")]

/-- After that the second watcher cannot unsubscribe the address as a whole, but any other one. -/
theorem unsubscribe_atomic_iff_takenAway :
    ∃ shift : Shift Script Script.Update,
      ((new {} twoBlocks 2).play Script.node takenAway).2.AmidAfter Script.node 1 [] shift ∧
        shift.rosters = ⟨["0xa"], []⟩ ∧ ¬ shift.UnsubscribesAtomically Script.node "0xa" ∧
        shift.UnsubscribesAtomically Script.node "0xb" := by
  have hpresent : ((new {} twoBlocks 2).play Script.node takenAway).2.watchers[1]? =
      some { subscriptions := ["0xa"] } := by cbv
  have hsteps : ∀ step ∈ takenAway, ∀ action ∈ step.actions, ¬ action.IsDirect := by
    simp [takenAway, Step.actions, Action.IsDirect]
  have hamid : ((new {} twoBlocks 2).play Script.node takenAway).2.AmidAfter Script.node 1 [] _ :=
    ⟨_, [], hpresent, rfl, .refl⟩
  have hown : standing (changesAt 1 (changeLog 2 takenAway ++
      (changesOf ([] : List (Action Script.Update))).map (1, ·))) = ["0xa"] := by cbv
  have hshared : standing (effective (changeLog 2 takenAway ++
      (changesOf ([] : List (Action Script.Update))).map (1, ·))) = [] := by cbv
  have hgone := unsubscribe_atomic_iff {} Script.node twoBlocks 2 takenAway hsteps 1 hamid
    (by simp) "0xa"
  have hother := unsubscribe_atomic_iff {} Script.node twoBlocks 2 takenAway hsteps 1 hamid
    (by simp) "0xb"
  simp only [hown, hshared] at hgone hother
  refine ⟨_, hamid, hgone.1, ?_, hother.2.1.mpr ?_⟩
  · rw [hgone.2.1]
    decide
  · decide

/-- The second watcher has the address when it unsubscribes it.  That fails, and the address is gone
from the watcher. -/
theorem unsubscribe_fails_halfway :
    ((new {} twoBlocks 2).play Script.node takenAway).2.watchers.map (·.subscriptions) =
        [[], ["0xa"]] ∧
      ((new {} twoBlocks 2).play Script.node
          (takenAway ++ [.act 1 (.unsubscribe "0xa")])).1.map (·.2.answers) =
        [[.ok .done], [.ok .done], [.ok .done], [.error (.addressNotFound "0xa")]] ∧
      ((new {} twoBlocks 2).play Script.node
          (takenAway ++ [.act 1 (.unsubscribe "0xa")])).2.watchers.map (·.subscriptions) =
        [[], []] :=
  ⟨by cbv, by cbv, by cbv⟩

end Session

end BlockWatch
