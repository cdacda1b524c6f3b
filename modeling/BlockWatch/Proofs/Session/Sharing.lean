import BlockWatch.Proofs.Session.Run
import BlockWatch.Proofs.Shift.Solo
import Mathlib

/-!
# Sharing a cache

Normative source: SPEC_FULL.md, section 10.7:

    `Watcher::with_cache(config, rpc, notifier, cache)` shares an existing ...

`sharing_unnoticed` compares a watcher among others on one cache with a watcher that is alone.  If
both are given the same steps and hear of the same heads, in canonical spelling, and all answers
come from one ledger, then after every prefix of the steps both are in the same state and have done
the same: attempted the same blocks with the same results, and sent the same notifications.  What
differs is who asks the node, and when.

Both runs are compared with a third machine, `Solo`, which has no cache and reads the ledger.
`play_solo` is the simulation for a run, by induction on its steps, and `Proofs.Shift.Solo` the one
for the work of a watcher.
-/

set_option autoImplicit false

namespace BlockWatch

variable {σ σ' υ : Type}

/-! ## Plain steps -/

/-- A step that is none of a loop, an operation on the cache, or the loss of a receiver, and in
which nothing is done meanwhile. -/
def Step.IsPlain : Step υ → Prop
  | .act _ action => action.IsPlain
  | .work _ errand meanwhile => (∀ cancelled, errand ≠ .listen cancelled) ∧ meanwhile = []

theorem Step.IsPlain.actions {step : Step υ} (plain : step.IsPlain) :
    ∀ action ∈ step.actions, action.IsPlain := by
  intro action haction
  cases step with
  | act place only => exact List.mem_singleton.mp haction ▸ plain
  | work place errand meanwhile =>
      rw [Step.actions, plain.2] at haction
      exact absurd haction List.not_mem_nil

/-- The same step, taken by the watcher at another place. -/
def Step.moveTo (place : Nat) : Step υ → Step υ
  | .act _ action => .act place action
  | .work _ errand meanwhile => .work place errand meanwhile

/-- The steps of the watcher at a place, as those of the only watcher of a session. -/
def ownSteps (place : Nat) (steps : List (Step υ)) : List (Step υ) :=
  (steps.filter (·.watcher = place)).map (Step.moveTo 0)

/-! ## Steps and runs on one's own -/

namespace Solo

/-- A step of a watcher on its own. -/
def step (ledger : Ledger) : Step υ → Work
  | .act _ action => fun solo => ([], { solo with watcher := solo.watcher.undergo action })
  | .work _ kind _ => errand ledger kind

/-- Steps one after the other. -/
def play (ledger : Ledger) : List (Step υ) → Work
  | [] => fun solo => ([], solo)
  | first :: rest => andThen (step ledger first) (play ledger rest)

/-- The place of a watcher does not matter. -/
theorem play_moveTo (ledger : Ledger) (place : Nat) (steps : List (Step υ)) :
    play ledger (steps.map (Step.moveTo place)) = play ledger steps := by
  induction steps with
  | nil => rfl
  | cons first rest ih =>
      have hsame : step ledger (first.moveTo place) = step ledger first := by
        cases first <;> rfl
      rw [List.map_cons, play, play, hsame, ih]

end Solo

namespace Session

variable {ledger : Ledger}

/-- The invariant of a watcher is preserved by its plain steps. -/
theorem serves_step (node : Node σ υ) {session after : Session σ} {step : Step υ} {report : Report}
    {watcher : Watcher} (hwatcher : session.watchers[step.watcher]? = some watcher)
    (hstep : session.step node step = (some report, after)) (plain : step.IsPlain)
    (labelled : ledger.Labelled) (serves : ledger.Serves watcher session.cache)
    (explains : ledger.Explains report.events) (heads : HeadsCanonical report.events) :
    ∃ next, after.watchers[step.watcher]? = some next ∧ ledger.Serves next after.cache := by
  obtain ⟨start, last, rfl, hevents, rfl, hcache, hagenda, hstrides⟩ :=
    strides_of_step node hwatcher hstep
  rw [hevents] at explains heads
  refine ⟨last.watcher, watchers_absorb_self hwatcher last, ?_⟩
  apply Ledger.Serves.strides (hcache ▸ serves) labelled hstrides
  · exact fun appointment hmem => plain.actions _ (hagenda appointment hmem)
  · exact Ledger.explains_reverse.mp explains
  · exact headsCanonical_reverse.mp heads

/-- A watcher with an empty queue has an empty queue after a step of its own. -/
theorem rested_step (node : Node σ υ) {session after : Session σ} {step : Step υ} {report : Report}
    {watcher next : Watcher} (hwatcher : session.watchers[step.watcher]? = some watcher)
    (hstep : session.step node step = (some report, after)) (rested : watcher.tasks = [])
    (hnext : after.watchers[step.watcher]? = some next) : next.tasks = [] := by
  cases step with
  | act place action =>
      simp only [Step.watcher] at hwatcher hnext
      simp only [Session.step, take, hwatcher] at hstep
      obtain ⟨-, rfl⟩ := Prod.mk.inj hstep
      rw [watchers_absorb_self hwatcher, Shift.act_watcher] at hnext
      cases hnext
      exact (Watcher.undergo_tasks watcher action).trans rested
  | work place errand meanwhile =>
      simp only [Step.watcher] at hwatcher hnext
      simp only [Session.step, take, hwatcher] at hstep
      obtain ⟨-, rfl⟩ := Prod.mk.inj hstep
      rw [watchers_absorb_self hwatcher, finish, Shift.settle_eq] at hnext
      cases hnext
      rfl

theorem covers_step (node : Node σ υ) {session after : Session σ} {step : Step υ} {report : Report}
    {watcher : Watcher} (hwatcher : session.watchers[step.watcher]? = some watcher)
    (hstep : session.step node step = (some report, after)) (plain : step.IsPlain)
    (labelled : ledger.Labelled) (covers : ledger.Covers session.cache)
    (explains : ledger.Explains report.events) :
    ledger.Covers after.cache ∧ Cache.Grows session.cache after.cache ∧
      ∀ place, place ≠ step.watcher → after.watchers[place]? = session.watchers[place]? := by
  obtain ⟨start, last, rfl, hevents, rfl, hcache, hagenda, hstrides⟩ :=
    strides_of_step node hwatcher hstep
  rw [hevents] at explains
  refine ⟨?_, hcache ▸ hstrides.grows,
    fun place hplace => watchers_absorb_ne session hplace last⟩
  apply Ledger.Covers.strides (hcache ▸ covers) labelled hstrides
  · exact untouched_of_plain fun appointment hmem => plain.actions _ (hagenda appointment hmem)
  · exact Ledger.explains_reverse.mp explains

theorem solo_act (node : Node σ υ) {session after : Session σ} {place : Nat} {action : Action υ}
    {report : Report} {watcher next : Watcher} (hwatcher : session.watchers[place]? = some watcher)
    (hstep : session.step node (.act place action) = (some report, after))
    (hnext : after.watchers[place]? = some next) (rest : List (Except Failure String)) :
    Solo.step ledger (.act place action) ⟨watcher, heardHeads report.events ++ rest⟩ =
      (deeds report.events, ⟨next, rest⟩) := by
  obtain ⟨records, hhistory, -⟩ := Shift.act_history node
    ({ node := session.node, cache := session.cache, watcher } : Shift σ υ) action
  have hundergone := Shift.act_watcher node
    ({ node := session.node, cache := session.cache, watcher } : Shift σ υ) action
  rcases hact : Shift.act node
    ({ node := session.node, cache := session.cache, watcher } : Shift σ υ) action
    with ⟨answer, ended⟩
  rw [hact] at hhistory hundergone
  simp only [Session.step, take, hwatcher, hact] at hstep
  obtain ⟨hreport, rfl⟩ := Prod.mk.inj hstep
  cases hreport
  rw [watchers_absorb_self hwatcher] at hnext
  cases hnext
  obtain ⟨hdeeds, hheads⟩ := Shift.silent_records records
  rw [hhistory, List.append_nil, heardHeads_reverse, deeds_reverse, hheads, hdeeds, hundergone]
  rfl

theorem solo_work (node : Node σ υ) {session after : Session σ} {place : Nat} {errand : Errand}
    {report : Report} {watcher next : Watcher} (hwatcher : session.watchers[place]? = some watcher)
    (hstep : session.step node (.work place errand []) = (some report, after))
    (finite : ∀ cancelled, errand ≠ .listen cancelled) (labelled : ledger.Labelled)
    (serves : ledger.Serves watcher session.cache) (rested : watcher.tasks = [])
    (explains : ledger.Explains report.events) (heads : HeadsCanonical report.events)
    (hnext : after.watchers[place]? = some next) (rest : List (Except Failure String)) :
    Solo.step ledger (Step.work place errand [] : Step υ)
        ⟨watcher, heardHeads report.events ++ rest⟩ =
      (deeds report.events, ⟨next, rest⟩) := by
  have hidle : agendaOf ([] : List (Nat × Action υ)) = [] := List.mergeSort_nil
  have hstrides := Shift.strides_run node session.pace
    ({ node := session.node, cache := session.cache, watcher } : Shift σ υ) errand
  rcases hran : run node session.pace
    ({ node := session.node, cache := session.cache, watcher } : Shift σ υ) errand
    with ⟨outcome, ended⟩
  rw [hran] at hstrides
  -- nothing is left to be done after the work but its tasks
  have hfinish : finish node ended = { ended.settle with agenda := [], loop := none } := by
    have hagenda : ended.agenda = [] := List.suffix_nil.mp hstrides.suffixes.2
    rw [finish, leave, hagenda, List.foldl_nil, Shift.settle_eq, Shift.settle_eq]
  simp only [Session.step, take, hwatcher, hidle, hran, hfinish] at hstep
  obtain ⟨hreport, rfl⟩ := Prod.mk.inj hstep
  cases hreport
  rw [watchers_absorb_self hwatcher] at hnext
  cases hnext
  have hended : ended = (run node session.pace
      ({ node := session.node, cache := session.cache, watcher } : Shift σ υ) errand).2 := by
    rw [hran]
  have hfollows : Shift.Follows (Solo.errand ledger errand)
      ({ node := session.node, cache := session.cache, watcher } : Shift σ υ) ended.settle := by
    have hsettle : Shift.Stride node session.pace ended ended.settle := .settle
    have hearlier := hsettle.suffixes.1
    have hexplains := (Ledger.explains_reverse.mp explains).mono hearlier.subset
    have hheads := (headsCanonical_reverse.mp heads).suffix hearlier
    rw [hended] at hexplains hheads ⊢
    exact Shift.follows_run node session.pace finite labelled serves rfl rested hexplains hheads
  obtain ⟨events, hevents, hwork⟩ := hfollows
  rw [List.append_nil] at hevents
  rw [Solo.step, hevents]
  exact hwork rest

/-- Step lemma: a plain step is simulated by the lone watcher. -/
theorem solo_step (node : Node σ υ) {session after : Session σ} {step : Step υ} {report : Report}
    {watcher next : Watcher} (hwatcher : session.watchers[step.watcher]? = some watcher)
    (hstep : session.step node step = (some report, after)) (plain : step.IsPlain)
    (labelled : ledger.Labelled) (serves : ledger.Serves watcher session.cache)
    (rested : watcher.tasks = []) (explains : ledger.Explains report.events)
    (heads : HeadsCanonical report.events) (hnext : after.watchers[step.watcher]? = some next)
    (rest : List (Except Failure String)) :
    Solo.step ledger step ⟨watcher, heardHeads report.events ++ rest⟩ =
      (deeds report.events, ⟨next, rest⟩) := by
  cases step with
  | act place action => exact solo_act node hwatcher hstep hnext rest
  | work place errand meanwhile =>
      obtain ⟨finite, rfl⟩ := plain
      exact solo_work node hwatcher hstep finite labelled serves rested explains heads hnext rest

/-- Run lemma: a run of plain steps is simulated by the lone watcher. -/
theorem play_solo (node : Node σ υ) (place : Nat) (labelled : ledger.Labelled)
    (steps : List (Step υ)) :
    ∀ (session : Session σ) (watcher : Watcher), session.watchers[place]? = some watcher →
      ledger.Serves watcher session.cache → watcher.tasks = [] →
      (∀ step ∈ steps, step.IsPlain) →
      ledger.Explains (allEvents (session.play node steps).1) →
      HeadsCanonical (eventsAt place (session.play node steps).1) →
      ∃ last, (session.play node steps).2.watchers[place]? = some last ∧
        ∀ rest, Solo.play ledger (steps.filter (·.watcher = place))
          ⟨watcher, heardHeads (eventsAt place (session.play node steps).1) ++ rest⟩ =
            (deeds (eventsAt place (session.play node steps).1), ⟨last, rest⟩) := by
  induction steps with
  | nil => exact fun session watcher hwatcher _ _ _ _ _ => ⟨watcher, hwatcher, fun rest => rfl⟩
  | cons step rest ih =>
      intro session watcher hwatcher hserves hrested hplain hexplains hheads
      have hstepPlain := hplain step List.mem_cons_self
      have hrestPlain : ∀ other ∈ rest, other.IsPlain :=
        fun other hother => hplain other (List.mem_cons_of_mem step hother)
      cases hpresent : session.watchers[step.watcher]? with
      | none =>
          have hother : step.watcher ≠ place := by
            intro heq
            rw [heq, hwatcher] at hpresent
            cases hpresent
          rw [play_of_absent node rest hpresent] at hexplains hheads ⊢
          rw [List.filter_cons_of_neg (by simpa using hother)]
          exact ih session watcher hwatcher hserves hrested hrestPlain hexplains hheads
      | some stepping =>
          obtain ⟨_, last, report, hstep, -⟩ := step_of_present node hpresent
          rw [play_of_present node rest hstep] at hexplains hheads ⊢
          have hreport : ledger.Explains report.events :=
            hexplains.mono (List.subset_append_left _ _)
          have hlater := hexplains.mono (List.subset_append_right report.events _)
          by_cases hplace : step.watcher = place
          · -- the watcher itself takes the step
            have hsame : stepping = watcher := by
              rw [hplace, hwatcher] at hpresent
              exact (Option.some.inj hpresent).symm
            rw [hsame] at hpresent
            rw [eventsAt_cons_self hplace, headsCanonical_append] at hheads
            obtain ⟨next, hnext, hgoes⟩ := serves_step node hpresent hstep hstepPlain labelled
              hserves hreport hheads.1
            obtain ⟨final, hfinal, hsolo⟩ :=
              ih _ next (hplace ▸ hnext) hgoes (rested_step node hpresent hstep hrested hnext)
                hrestPlain hlater hheads.2
            refine ⟨final, hfinal, fun heads => ?_⟩
            rw [eventsAt_cons_self hplace, List.filter_cons_of_pos (by simpa using hplace),
              heardHeads_append, List.append_assoc, Solo.play, Solo.andThen,
              solo_step node hpresent hstep hstepPlain labelled hserves hrested hreport hheads.1
                hnext,
              deeds_append]
            simp only [hsolo]
          · -- another watcher takes the step
            obtain ⟨hcovers, hgrows, hothers⟩ := covers_step node hpresent hstep hstepPlain labelled
              hserves.covers hreport
            rw [eventsAt_cons_ne hplace] at hheads ⊢
            rw [List.filter_cons_of_neg (by simpa using hplace)]
            exact ih _ watcher ((hothers place (Ne.symm hplace)).trans hwatcher)
              (hserves.grow hgrows hcovers) hrested hrestPlain hlater hheads

/-- After any first steps of a run a new watcher is where the lone one is; it may have heads left to
hear. -/
theorem solo_of_prefix (settings : Settings) (node : Node σ υ) (state : σ) {watchers place : Nat}
    (present : place < watchers) (labelled : ledger.Labelled) {early late : List (Step υ)}
    (plain : ∀ step ∈ early ++ late, step.IsPlain)
    (explains : ledger.Explains (allEvents ((new settings state watchers).play node
      (early ++ late)).1))
    (heads : HeadsCanonical (eventsAt place ((new settings state watchers).play node
      (early ++ late)).1)) :
    ∃ last rest,
      ((new settings state watchers).play node early).2.watchers[place]? = some last ∧
      Solo.play ledger (early.filter (·.watcher = place))
        ⟨{}, heardHeads (eventsAt place ((new settings state watchers).play node
          (early ++ late)).1)⟩ =
        (deeds (eventsAt place ((new settings state watchers).play node early).1),
          ⟨last, rest⟩) := by
  have hfirst : (new settings state watchers).watchers[place]? = some {} :=
    List.getElem?_replicate_of_lt present
  rw [play_append] at explains heads ⊢
  rw [eventsAt_append] at heads ⊢
  rw [allEvents_append] at explains
  obtain ⟨last, hlast, hsolo⟩ := play_solo node place labelled early _ {} hfirst .new rfl
    (fun step hstep => plain step (List.mem_append_left late hstep))
    (explains.mono (List.subset_append_left _ _))
    (headsCanonical_append.mp heads).1
  exact ⟨last, _, hlast, heardHeads_append _ _ ▸ hsolo _⟩

theorem isPlain_ownSteps {place : Nat} {steps : List (Step υ)}
    (plain : ∀ step ∈ steps, step.IsPlain) : ∀ step ∈ ownSteps place steps, step.IsPlain := by
  intro step hstep
  obtain ⟨own, hown, rfl⟩ := List.mem_map.mp hstep
  have hplain := plain own (List.mem_of_mem_filter hown)
  cases own <;> exact hplain

theorem filter_ownSteps (place : Nat) (steps : List (Step υ)) :
    (ownSteps place steps).filter (·.watcher = 0) = ownSteps place steps := by
  rw [List.filter_eq_self]
  intro step hstep
  obtain ⟨own, -, rfl⟩ := List.mem_map.mp hstep
  cases own <;> rfl

theorem ownSteps_append (place : Nat) (early late : List (Step υ)) :
    ownSteps place (early ++ late) = ownSteps place early ++ ownSteps place late := by
  rw [ownSteps, List.filter_append, List.map_append]
  rfl

/-- A watcher cannot tell whether it shares its cache.  Let watchers on one cache take plain steps,
and let one of them take its own steps alone, at any node that gives it the same answers for the
head.  Let the answers for all blocks and transactions in both runs be in one ledger, in which every
transaction carries its hash, and let the heads that the watcher hears be canonical.  Then after
each step the watcher is the same in both runs, and it has done the same: looked at the head and
attempted blocks with the same results, or failed in both, and sent the same notifications. -/
theorem sharing_unnoticed (settings : Settings) (node : Node σ υ) (state : σ) (lone : Node σ' υ)
    (loneState : σ') {watchers place : Nat} (hplace : place < watchers) {steps : List (Step υ)}
    (hplain : ∀ step ∈ steps, step.IsPlain) (hlabelled : ledger.Labelled)
    (hshared : ledger.Explains (allEvents ((new settings state watchers).play node steps).1))
    (hlone : ledger.Explains
      (allEvents ((new settings loneState 1).play lone (ownSteps place steps)).1))
    (hcanonical : HeadsCanonical
      (eventsAt place ((new settings state watchers).play node steps).1))
    (hsame : heardHeads (eventsAt place ((new settings state watchers).play node steps).1) =
      heardHeads (eventsAt 0 ((new settings loneState 1).play lone (ownSteps place steps)).1))
    {done : List (Step υ)} (hdone : done <+: steps) :
    ∃ watcher,
      ((new settings state watchers).play node done).2.watchers[place]? = some watcher ∧
      ((new settings loneState 1).play lone (ownSteps place done)).2.watchers[0]? =
        some watcher ∧
      deeds (eventsAt place ((new settings state watchers).play node done).1) =
        deeds (eventsAt 0 ((new settings loneState 1).play lone (ownSteps place done)).1) := by
  obtain ⟨later, rfl⟩ := hdone
  have hloneCanonical : HeadsCanonical
      (eventsAt 0 ((new settings loneState 1).play lone (ownSteps place (done ++ later))).1) := by
    rw [HeadsCanonical, ← hsame]
    exact hcanonical
  have hlonePlain : ∀ step ∈ ownSteps place (done ++ later), step.IsPlain :=
    isPlain_ownSteps hplain
  obtain ⟨last, rest, hlast, hsolo⟩ :=
    solo_of_prefix settings node state hplace hlabelled hplain hshared hcanonical
  rw [ownSteps_append] at hlone hloneCanonical hlonePlain hsame
  obtain ⟨final, others, hfinal, hlonely⟩ := solo_of_prefix settings lone loneState Nat.one_pos
    hlabelled hlonePlain hlone hloneCanonical
  rw [filter_ownSteps, ownSteps, Solo.play_moveTo, ← ownSteps, ← hsame, hsolo] at hlonely
  obtain ⟨hdeeds, hwatchers⟩ := Prod.mk.inj hlonely
  obtain ⟨rfl, -⟩ := Solo.mk.inj hwatchers
  exact ⟨last, hlast, hfinal, hdeeds⟩

/-- A ledger with one block and its transaction. -/
def onePage : Ledger where
  block number := if number = "0x5" then some ⟨"0xb", ["0x1"]⟩ else none
  transaction hash := if hash = "0x1" then some ⟨"0x1", "0xa", none, []⟩ else none

/-- A node that answers from this ledger.  It announces some heads first, and then a block that it
does not have. -/
def announcing (heads : List String) : Script where
  head := some "0x6"
  queue := heads.map some
  blocks := ⟨[("0x5", ⟨"0xb", ["0x1"]⟩)]⟩
  transactions := ⟨[("0x1", ⟨"0x1", "0xa", none, []⟩)]⟩

/-- A watcher processes a block.  Another one, with a subscriber, processes it after that and fails
at the next one. -/
def sideBySide : List (Step Script.Update) :=
  [.act 1 (.subscribe "0x0a"), .work 0 .observe [], .work 0 .attempt [], .work 1 .tick [],
    .work 1 .observe [], .work 1 .attempt []]

theorem sharing_unnoticed_sideBySide :
    onePage.Labelled ∧ (∀ step ∈ sideBySide, step.IsPlain) ∧
      ∃ watcher,
        ((new {} (announcing ["0x5", "0x5"]) 2).play Script.node sideBySide).2.watchers[1]? =
          some watcher ∧
        ((new {} (announcing ["0x5"]) 1).play Script.node
          (ownSteps 1 sideBySide)).2.watchers[0]? = some watcher ∧
        deeds (eventsAt 1
          ((new {} (announcing ["0x5", "0x5"]) 2).play Script.node sideBySide).1) =
          deeds (eventsAt 0
            ((new {} (announcing ["0x5"]) 1).play Script.node (ownSteps 1 sideBySide)).1) := by
  have hlabelled : onePage.Labelled := by
    intro hash transaction h
    simp only [onePage, Option.ite_none_right_eq_some, Option.some.injEq] at h
    rw [← h.2, h.1]
  have hplain : ∀ step ∈ sideBySide, step.IsPlain := by
    simp [sideBySide, Step.IsPlain, Action.IsPlain]
  have hentries : (allEvents ((new {} (announcing ["0x5", "0x5"]) 2).play Script.node
      sideBySide).1).filterMap Event.entry? =
        [.block "0x5" (some ⟨"0xb", ["0x1"]⟩),
          .transaction "0x1" (some ⟨"0x1", "0xa", none, []⟩), .block "0x6" none] := by cbv
  have hloneEntries : (allEvents ((new {} (announcing ["0x5"]) 1).play Script.node
      (ownSteps 1 sideBySide)).1).filterMap Event.entry? =
        [.block "0x5" (some ⟨"0xb", ["0x1"]⟩),
          .transaction "0x1" (some ⟨"0x1", "0xa", none, []⟩), .block "0x6" none] := by cbv
  have hheard : heardHeads (eventsAt 1
      ((new {} (announcing ["0x5", "0x5"]) 2).play Script.node sideBySide).1) =
        [.ok "0x5", .ok "0x6"] := by cbv
  have hloneHeard : heardHeads (eventsAt 0 ((new {} (announcing ["0x5"]) 1).play Script.node
      (ownSteps 1 sideBySide)).1) = [.ok "0x5", .ok "0x6"] := by cbv
  have hknown : ∀ entry ∈ [Entry.block "0x5" (some ⟨"0xb", ["0x1"]⟩),
      .transaction "0x1" (some ⟨"0x1", "0xa", none, []⟩), .block "0x6" none],
        onePage.Has entry := by
    simp [Ledger.Has, onePage]
  have hcanonical : HeadsCanonical (eventsAt 1
      ((new {} (announcing ["0x5", "0x5"]) 2).play Script.node sideBySide).1) := by
    intro head n hhead hn
    rw [hheard] at hhead
    have hspelled : head = "0x5" ∨ head = "0x6" := by simpa using hhead
    rcases hspelled with rfl | rfl
    · obtain rfl : 5 = n := Except.ok.inj hn
      exact ⟨by decide, by cbv⟩
    · obtain rfl : 6 = n := Except.ok.inj hn
      exact ⟨by decide, by cbv⟩
  refine ⟨hlabelled, hplain, ?_⟩
  exact sharing_unnoticed {} Script.node (announcing ["0x5", "0x5"]) Script.node
    (announcing ["0x5"]) (by decide) hplain hlabelled
    (by rw [Ledger.Explains, hentries]; exact hknown)
    (by rw [Ledger.Explains, hloneEntries]; exact hknown) hcanonical (hheard.trans hloneHeard.symm)
    List.prefix_rfl

end Session

end BlockWatch
