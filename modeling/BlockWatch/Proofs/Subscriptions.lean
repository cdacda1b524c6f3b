import BlockWatch.Proofs.Address
import BlockWatch.Proofs.Shift.Actions
import Mathlib.Data.List.Nodup

/-!
# Subscriptions by the changes that were asked for

Normative source: SPEC_FULL.md, section 10.7:

    `subscribe`/`unsubscribe` are serialized so the Watcher and Cache subscription sets always
    agree.

A roster to which changes were made holds the addresses that were subscribed and not unsubscribed
since, in the order of the subscriptions that put them in: `standing` reads this off the changes
alone.

A watcher makes every change to its own roster.  It changes the roster of its cache only where the
change makes a difference to its own (`Change.enact`), so in a cache that watchers share those
changes stand that took effect with their watcher (`effective`).  `Rosters.Stand` is the invariant
that relates the two rosters to the log of all changes, with its step and run lemmas.

`Shift.unsubscribesAtomically_iff` says when unsubscribing is all or nothing: unless the cache lacks
what the watcher has.  A cache of a single watcher never does.
-/

set_option autoImplicit false

namespace BlockWatch

variable {σ υ : Type}

/-! ## Changes -/

/-- A change of a roster. -/
inductive Change where
  | subscribe (address : String)
  | unsubscribe (address : String)
  deriving DecidableEq, Repr

/-- The change that an action asks of the watcher, with the address in canonical spelling. -/
def Action.change? : Action υ → Option Change
  | .subscribe address => some (.subscribe (Address.canonical address))
  | .unsubscribe address => some (.unsubscribe (Address.canonical address))
  | _ => none

/-- An action that changes the subscriptions of a cache behind the back of the watchers. -/
def Action.IsDirect : Action υ → Prop
  | .cache (.subscribe _) | .cache (.unsubscribe _) => True
  | _ => False

namespace Change

/-- A roster after a change. -/
def apply (roster : List String) : Change → List String
  | .subscribe address => Roster.add roster address
  | .unsubscribe address => roster.erase address

/-- The change makes a difference to a roster. -/
def Effective (roster : List String) : Change → Prop
  | .subscribe address => address ∉ roster
  | .unsubscribe address => address ∈ roster

instance (roster : List String) (change : Change) : Decidable (change.Effective roster) :=
  match change with
  | .subscribe address => inferInstanceAs (Decidable (address ∉ roster))
  | .unsubscribe address => inferInstanceAs (Decidable (address ∈ roster))

theorem apply_of_not_effective {roster : List String} {change : Change}
    (h : ¬ change.Effective roster) : change.apply roster = roster := by
  cases change with
  | subscribe address =>
      have hmem : address ∈ roster := not_not.mp h
      exact if_pos (by simpa using hmem)
  | unsubscribe address => exact List.erase_of_not_mem h

/-- A change to a roster whose first address occurs in it once. -/
theorem apply_cons {roster : List String} (nodup : roster.Nodup) (address : String)
    (change : Change) :
    change.apply (address :: roster.filter (· ≠ address)) =
      if change = .unsubscribe address then change.apply roster
      else address :: (change.apply roster).filter (· ≠ address) := by
  cases change with
  | subscribe other =>
      rw [if_neg (by simp)]
      by_cases hsame : other = address
      · by_cases hmem : address ∈ roster <;> simp [apply, Roster.add, hsame, hmem]
      · by_cases hmem : other ∈ roster <;> simp [apply, Roster.add, hsame, hmem]
  | unsubscribe other =>
      simp only [apply, nodup.erase_eq_filter]
      by_cases hsame : other = address
      · subst hsame
        rw [if_pos rfl, List.erase_cons_head]
        exact List.filter_congr fun entry _ => Bool.eq_iff_iff.mpr (by simp)
      · rw [if_neg (by simpa using hsame), List.erase_cons_tail (by simpa using Ne.symm hsame),
          (nodup.filter _).erase_eq_filter, List.filter_filter, List.filter_filter]
        congr 1
        exact List.filter_congr fun entry _ => Bool.and_comm _ _

end Change

/-! ## What stands -/

/-- The addresses that were subscribed and not unsubscribed since, in the order of the changes that
put them in. -/
def standing : List Change → List String
  | [] => []
  | .subscribe address :: rest =>
      if .unsubscribe address ∈ rest then standing rest
      else address :: (standing rest).filter (· ≠ address)
  | .unsubscribe _ :: rest => standing rest

/-- What stands was subscribed, and not unsubscribed since. -/
theorem mem_standing {address : String} {changes : List Change} :
    address ∈ standing changes ↔
      ∃ early late, changes = early ++ .subscribe address :: late ∧
        .unsubscribe address ∉ late := by
  constructor
  · intro h
    fun_induction standing changes with
    | case1 => cases h
    | case2 other rest hgone ih =>
        obtain ⟨early, late, rfl, hlate⟩ := ih h
        exact ⟨_ :: early, late, rfl, hlate⟩
    | case3 other rest hstays ih =>
        rcases List.mem_cons.mp h with rfl | h
        · exact ⟨[], rest, rfl, hstays⟩
        · obtain ⟨early, late, rfl, hlate⟩ := ih (List.mem_of_mem_filter h)
          exact ⟨_ :: early, late, rfl, hlate⟩
    | case4 other rest ih =>
        obtain ⟨early, late, rfl, hlate⟩ := ih h
        exact ⟨_ :: early, late, rfl, hlate⟩
  · rintro ⟨early, late, rfl, hlate⟩
    induction early with
    | nil => simp [standing, hlate]
    | cons change rest ih =>
        cases change with
        | unsubscribe other => exact ih
        | subscribe other =>
            rw [List.cons_append, standing]
            split
            · exact ih
            · by_cases hsame : address = other
              · exact hsame ▸ List.mem_cons_self
              · exact List.mem_cons_of_mem _ (List.mem_filter.mpr ⟨ih, by simpa using hsame⟩)

theorem nodup_standing (changes : List Change) : (standing changes).Nodup := by
  fun_induction standing changes with
  | case1 => exact List.nodup_nil
  | case2 address rest hgone ih => exact ih
  | case3 address rest hstays ih =>
      exact List.nodup_cons.mpr ⟨by simp, ih.filter _⟩
  | case4 address rest ih => exact ih

theorem standing_concat (changes : List Change) (change : Change) :
    standing (changes ++ [change]) = change.apply (standing changes) := by
  fun_induction standing changes with
  | case1 => cases change <;> simp [standing, Change.apply, Roster.add]
  | case2 address rest hgone ih =>
      rw [List.cons_append, standing, if_pos (List.mem_append_left _ hgone), ih]
  | case4 address rest ih => exact ih
  | case3 address rest hstays ih =>
      rw [List.cons_append, standing, ih, Change.apply_cons (nodup_standing rest)]
      have hgoes : .unsubscribe address ∈ rest ++ [change] ↔ change = .unsubscribe address := by
        simp [hstays, eq_comm]
      by_cases hlast : change = .unsubscribe address
      · rw [if_pos (hgoes.mpr hlast), if_pos hlast]
      · rw [if_neg (mt hgoes.mp hlast), if_neg hlast]

/-! ## Changes by several watchers -/

/-- The changes that were asked of the watcher at a place. -/
def changesAt (place : Nat) (log : List (Nat × Change)) : List Change :=
  (log.filter (·.1 = place)).map (·.2)

/-- The changes of a log that made a difference to the roster of their watcher, where earlier ones
were made already. -/
def effectiveAfter (early : List (Nat × Change)) : List (Nat × Change) → List Change
  | [] => []
  | (place, change) :: rest =>
      let others := effectiveAfter (early ++ [(place, change)]) rest
      if change.Effective (standing (changesAt place early)) then change :: others else others

/-- The changes of a log that made a difference to the roster of their watcher. -/
def effective (log : List (Nat × Change)) : List Change := effectiveAfter [] log

theorem changesAt_concat (place : Nat) (log : List (Nat × Change)) (other : Nat)
    (change : Change) :
    changesAt place (log ++ [(other, change)]) =
      changesAt place log ++ if other = place then [change] else [] := by
  unfold changesAt
  by_cases h : other = place <;> simp [h]

theorem effectiveAfter_concat (log : List (Nat × Change)) (place : Nat) (change : Change) :
    ∀ early, effectiveAfter early (log ++ [(place, change)]) = effectiveAfter early log ++
      if change.Effective (standing (changesAt place (early ++ log))) then [change] else [] := by
  induction log with
  | nil =>
      intro early
      simp [effectiveAfter]
  | cons first rest ih =>
      intro early
      rw [List.cons_append, effectiveAfter, effectiveAfter, ih, List.append_assoc,
        List.singleton_append]
      by_cases h : first.2.Effective (standing (changesAt first.1 early)) <;> simp [h]

theorem effective_concat (log : List (Nat × Change)) (place : Nat) (change : Change) :
    effective (log ++ [(place, change)]) = effective log ++
      if change.Effective (standing (changesAt place log)) then [change] else [] :=
  effectiveAfter_concat log place change []

/-- For a single watcher the effective changes leave the same standing. -/
theorem standing_effective_of_single (place : Nat) (changes : List Change) :
    standing (effective (changes.map (place, ·))) = standing changes := by
  induction changes using List.reverseRecOn with
  | nil => rfl
  | append_singleton changes change ih =>
      have hown : changesAt place (changes.map (place, ·)) = changes := by
        simp [changesAt, List.filter_map, Function.comp_def]
      rw [List.map_append, List.map_singleton, effective_concat, hown, standing_concat]
      by_cases h : change.Effective (standing changes)
      · rw [if_pos h, standing_concat, ih]
      · rw [if_neg h, List.append_nil, ih, Change.apply_of_not_effective h]

/-! ## Two rosters -/

/-- The roster of a watcher and that of its cache. -/
structure Rosters where
  own : List String
  shared : List String

/-- A change is made to the roster of the watcher, and where it makes a difference there also to
that of the cache. -/
def Change.enact (rosters : Rosters) (change : Change) : Rosters :=
  if change.Effective rosters.own then
    ⟨change.apply rosters.own, change.apply rosters.shared⟩
  else rosters

theorem Change.enact_of_effective {rosters : Rosters} {change : Change}
    (h : change.Effective rosters.own) :
    change.enact rosters = ⟨change.apply rosters.own, change.apply rosters.shared⟩ := if_pos h

theorem Change.enact_of_not_effective {rosters : Rosters} {change : Change}
    (h : ¬ change.Effective rosters.own) : change.enact rosters = rosters := if_neg h

/-- The roster of a watcher and that of its cache are what stands of a log. -/
structure Rosters.Stand (place : Nat) (log : List (Nat × Change)) (rosters : Rosters) : Prop where
  own : rosters.own = standing (changesAt place log)
  shared : rosters.shared = standing (effective log)

/-- Step lemma. -/
theorem Rosters.Stand.enact {place : Nat} {log : List (Nat × Change)} {rosters : Rosters}
    (stand : rosters.Stand place log) (change : Change) :
    (change.enact rosters).Stand place (log ++ [(place, change)]) := by
  by_cases h : change.Effective rosters.own
  · rw [Change.enact_of_effective h]
    constructor
    · rw [changesAt_concat, if_pos rfl, standing_concat, ← stand.own]
    · rw [effective_concat, ← stand.own, if_pos h, standing_concat, ← stand.shared]
  · rw [Change.enact_of_not_effective h]
    constructor
    · rw [changesAt_concat, if_pos rfl, standing_concat, ← stand.own,
        Change.apply_of_not_effective h]
    · rw [effective_concat, ← stand.own, if_neg h, List.append_nil, stand.shared]

/-- Run lemma. -/
theorem Rosters.Stand.enactAll {place : Nat} (changes : List Change) :
    ∀ {log : List (Nat × Change)} {rosters : Rosters}, rosters.Stand place log →
      (changes.foldl Change.enact rosters).Stand place (log ++ changes.map (place, ·)) := by
  induction changes with
  | nil =>
      intro log rosters stand
      simpa using stand
  | cons change rest ih =>
      intro log rosters stand
      have hrest := ih (stand.enact change)
      rwa [List.append_assoc, List.singleton_append] at hrest

theorem Cache.subscriptions_perform {cache : Cache} {call : Cache.Call}
    (h : ¬ (Action.cache call : Action υ).IsDirect) :
    (cache.perform call).2.subscriptions = cache.subscriptions := by
  cases call with
  | subscribe address => exact absurd trivial h
  | unsubscribe address => exact absurd trivial h
  | markProcessed number =>
      rw [Cache.perform_markProcessed]
      split_ifs <;> rfl
  | addBlock number block => rfl
  | block number => rfl
  | isProcessed number => rfl
  | addTransaction transaction => rfl
  | transaction hash => rfl
  | transactionsOf address => rfl
  | subscriptions => rfl

namespace Watcher

variable (watcher : Watcher) (cache : Cache) {address : String}

theorem subscribe_of_mem (h : Address.canonical address ∈ watcher.subscriptions) :
    watcher.subscribe cache address = ([], watcher, cache) :=
  if_pos (by simpa using h)

theorem subscribe_of_not_mem (h : Address.canonical address ∉ watcher.subscriptions) :
    watcher.subscribe cache address =
      ([subscribedRecord (Address.canonical address)],
        { watcher with
          subscriptions := Roster.add watcher.subscriptions (Address.canonical address) },
        cache.subscribe (Address.canonical address)) :=
  if_neg (by simpa using h)

theorem unsubscribe_of_not_mem (h : Address.canonical address ∉ watcher.subscriptions) :
    watcher.unsubscribe cache address =
      (.error (.addressNotFound (Address.canonical address)), watcher, cache) := by
  simp [unsubscribe, Roster.remove?, h]

theorem unsubscribe_of_mem (h : Address.canonical address ∈ watcher.subscriptions)
    (shared : Address.canonical address ∈ cache.subscriptions) :
    watcher.unsubscribe cache address =
      (.ok (),
        { watcher with
          subscriptions := watcher.subscriptions.erase (Address.canonical address) },
        { cache with
          subscriptions := cache.subscriptions.erase (Address.canonical address) }) := by
  simp [unsubscribe, Cache.unsubscribe, Roster.remove?, h, shared]

/-- An address that the watcher has and the cache lacks is gone from the watcher, and yet the result
is a failure. -/
theorem unsubscribe_of_not_shared (h : Address.canonical address ∈ watcher.subscriptions)
    (shared : Address.canonical address ∉ cache.subscriptions) :
    watcher.unsubscribe cache address =
      (.error (.addressNotFound (Address.canonical address)),
        { watcher with
          subscriptions := watcher.subscriptions.erase (Address.canonical address) },
        cache) := by
  simp [unsubscribe, Cache.unsubscribe, Roster.remove?, h, shared]

end Watcher

namespace Shift

/-- The roster of the watcher and that of the cache. -/
def rosters (shift : Shift σ υ) : Rosters :=
  ⟨shift.watcher.subscriptions, shift.cache.subscriptions⟩

/-- The effect of an action on the rosters is that of the change it requests. -/
theorem act_rosters (node : Node σ υ) (shift : Shift σ υ) {action : Action υ}
    (h : ¬ action.IsDirect) :
    (shift.act node action).2.rosters =
      action.change?.toList.foldl Change.enact shift.rosters := by
  cases action with
  | subscribe address =>
      show _ = Change.enact shift.rosters (.subscribe (Address.canonical address))
      by_cases heffective :
          Change.Effective shift.rosters.own (.subscribe (Address.canonical address))
      · rw [Change.enact_of_effective heffective]
        simp only [act, shift.watcher.subscribe_of_not_mem shift.cache heffective, write_eq,
          rosters]
        rfl
      · rw [Change.enact_of_not_effective heffective]
        simp only [act, shift.watcher.subscribe_of_mem shift.cache (not_not.mp heffective),
          write_eq, rosters]
  | unsubscribe address =>
      show _ = Change.enact shift.rosters (.unsubscribe (Address.canonical address))
      by_cases heffective :
          Change.Effective shift.rosters.own (.unsubscribe (Address.canonical address))
      · rw [Change.enact_of_effective heffective]
        by_cases hshared : Address.canonical address ∈ shift.cache.subscriptions
        · simp only [act, shift.watcher.unsubscribe_of_mem shift.cache heffective hshared, rosters,
            Change.apply]
        · simp only [act, shift.watcher.unsubscribe_of_not_shared shift.cache heffective hshared,
            rosters, Change.apply, List.erase_of_not_mem hshared]
      · rw [Change.enact_of_not_effective heffective]
        simp only [act, shift.watcher.unsubscribe_of_not_mem shift.cache heffective, rosters]
  | cache call =>
      simp only [act, rosters, Cache.consult_cache, Cache.subscriptions_perform h]
      rfl
  | close =>
      obtain ⟨stopped, hclose⟩ := shift.close_eq
      simp only [act, hclose]
      rfl
  | node update => rfl
  | cancel => rfl
  | dropReceiver => rfl

theorem act_unsubscribe (node : Node σ υ) (shift : Shift σ υ) (address : String) :
    (shift.act node (.unsubscribe address)).1 =
      if Address.canonical address ∈ shift.watcher.subscriptions ∧
          Address.canonical address ∈ shift.cache.subscriptions then .ok .done
      else .error (.addressNotFound (Address.canonical address)) := by
  by_cases hown : Address.canonical address ∈ shift.watcher.subscriptions
  · by_cases hshared : Address.canonical address ∈ shift.cache.subscriptions
    · rw [if_pos ⟨hown, hshared⟩]
      simp only [act, shift.watcher.unsubscribe_of_mem shift.cache hown hshared]
      rfl
    · rw [if_neg fun h => hshared h.2]
      simp only [act, shift.watcher.unsubscribe_of_not_shared shift.cache hown hshared]
      rfl
  · rw [if_neg fun h => hown h.1]
    simp only [act, shift.watcher.unsubscribe_of_not_mem shift.cache hown]
    rfl

/-- Unsubscribing is all or nothing: it fails only at an address that the watcher does not have, and
then it leaves both rosters as they were. -/
def UnsubscribesAtomically (node : Node σ υ) (shift : Shift σ υ) (address : String) : Prop :=
  ∀ failure, (shift.act node (.unsubscribe address)).1 = .error failure →
    (shift.act node (.unsubscribe address)).2.rosters = shift.rosters ∧
      Address.canonical address ∉ shift.watcher.subscriptions

/-- Unsubscribing is atomic unless the cache lacks what the watcher has. -/
theorem unsubscribesAtomically_iff (node : Node σ υ) (shift : Shift σ υ) (address : String) :
    shift.UnsubscribesAtomically node address ↔
      (Address.canonical address ∈ shift.watcher.subscriptions →
        Address.canonical address ∈ shift.cache.subscriptions) := by
  unfold UnsubscribesAtomically
  rw [act_unsubscribe]
  constructor
  · intro hatomic hown
    by_contra hshared
    exact (hatomic _ (if_neg fun h => hshared h.2)).2 hown
  · intro hshares failure hfailed
    by_cases hown : Address.canonical address ∈ shift.watcher.subscriptions
    · rw [if_pos ⟨hown, hshares hown⟩] at hfailed
      cases hfailed
    · refine ⟨?_, hown⟩
      simp only [act, shift.watcher.unsubscribe_of_not_mem shift.cache hown]

end Shift

end BlockWatch
