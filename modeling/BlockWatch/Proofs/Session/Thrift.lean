import BlockWatch.Proofs.Session.Soundness
import BlockWatch.Proofs.Shift.Requests

/-!
# No duplicate work

Normative source: SPEC_FULL.md, section 1:

    recovering from partial failure without duplicate work or lost progress

`nothing_gained_twice` is about every run of watchers on one cache, however often attempts fail and
are repeated, whichever watcher repeats them, and whatever is put into the cache meanwhile.  The
node answers for no block and no transaction twice; it is asked for nothing that the cache has at
that moment or that was gained before; and an attempt asks for exactly the transactions of its block
that the cache lacks when they are started.  This needs that answers carry the hash that was asked
for, and that no block lists a transaction twice.

`requests` goes through a step again and keeps every question with the shift at its moment, which is
what makes these statements about moments possible.  `play_thrift` is the run lemma, from `Thrift`
of `Proofs.Shift.Gains`.
-/

set_option autoImplicit false

open scoped List

namespace BlockWatch

variable {σ υ : Type}

namespace Session

/-! ## Steps -/

/-- The questions of a step, each with its moment. -/
def requests (node : Node σ υ) (session : Session σ) : Step υ → List (Request σ υ)
  | .act _ _ => []
  | .work place errand meanwhile =>
      match session.watchers[place]? with
      | none => []
      | some watcher =>
          Shift.requests node session.pace
            { node := session.node, cache := session.cache, watcher
              agenda := agendaOf meanwhile } errand

/-- The questions that a step reports, each with a cache at its moment that lacks what is asked for.
-/
theorem asks_step (node : Node σ υ) {session after : Session σ} {step : Step υ} {report : Report}
    (h : session.step node step = (some report, after)) :
    report.asks = (session.requests node step).map Request.shown ∧
      ∀ request ∈ session.requests node step,
        session.Amid node step.watcher request.moment ∧
        request.moment.history.reverse <+: report.events ∧
        request.moment.cache.has request.ask = false := by
  cases hwatcher : session.watchers[step.watcher]? with
  | none =>
      rw [step_of_absent node hwatcher] at h
      cases h
  | some watcher =>
      cases step with
      | act place action =>
          simp only [Step.watcher] at hwatcher
          obtain ⟨records, hhistory, -⟩ := Shift.act_history node
            ({ node := session.node, cache := session.cache, watcher } : Shift σ υ) action
          simp only [Session.step, take, hwatcher] at h
          obtain ⟨hreport, -⟩ := Prod.mk.inj h
          refine ⟨?_, fun _ hrequest => absurd hrequest List.not_mem_nil⟩
          have hsilent : (records.map Event.recorded).filterMap Event.ask? = [] :=
            Event.filterMap_recorded (fun _ => rfl) records
          rw [← Option.some.inj hreport]
          simp only [Report.asks, hhistory, List.append_nil, List.filterMap_reverse, hsilent]
          rfl
      | work place errand meanwhile =>
          simp only [Step.watcher] at hwatcher
          have hasks := (Shift.Asks.run node session.pace
            { node := session.node, cache := session.cache, watcher, agenda := agendaOf meanwhile }
            errand).andSilent (Shift.Silent.finish node _)
          simp only [Session.step, take, hwatcher] at h
          simp only [requests, hwatcher]
          rcases hran : run node session.pace
            { node := session.node, cache := session.cache, watcher, agenda := agendaOf meanwhile }
            errand with ⟨outcome, ended⟩
          rw [hran] at h hasks
          obtain ⟨hreport, -⟩ := Prod.mk.inj h
          obtain ⟨⟨events, hhistory, hshown⟩, hmoments⟩ := hasks
          rw [List.append_nil] at hhistory
          rw [← Option.some.inj hreport, Report.asks, hhistory]
          refine ⟨hshown, fun request hrequest => ?_⟩
          obtain ⟨hreached, hsuffix, hlacks⟩ := hmoments request hrequest
          rw [hhistory] at hsuffix
          exact ⟨⟨watcher, _, hwatcher, hreached⟩, List.reverse_prefix.mpr hsuffix, hlacks⟩

/-! ## Runs -/

/-- No block that is put into the cache in some steps lists a transaction twice. -/
def PutsSimple (steps : List (Step υ)) : Prop :=
  ∀ step ∈ steps, ∀ action ∈ step.actions, ∀ block, action.block? = some block →
    block.transactions.Nodup

/-- Run lemma: no gain was in the cache before, and none is gained twice. -/
theorem play_thrift (node : Node σ υ) (steps : List (Step υ)) :
    ∀ session : Session σ, session.cache.Simple → PutsSimple steps →
      Labelled (allEvents (session.play node steps).1) →
      Simple (allEvents (session.play node steps).1) →
      (session.play node steps).2.cache.Simple ∧
        Thrift session.cache (session.play node steps).2.cache
          (allEvents (session.play node steps).1) := by
  induction steps with
  | nil => exact fun session hcache _ _ _ => ⟨hcache, .refl _⟩
  | cons step rest ih =>
      intro session hcache hputs hlabelled hsimple
      have hrest : PutsSimple rest :=
        fun other hother => hputs other (List.mem_cons_of_mem step hother)
      cases hwatcher : session.watchers[step.watcher]? with
      | none =>
          rw [play_of_absent node rest hwatcher] at hlabelled hsimple ⊢
          exact ih session hcache hrest hlabelled hsimple
      | some watcher =>
          obtain ⟨agenda, last, report, hstep, hevents, hagenda, -, hlegs, -⟩ :=
            step_told node hwatcher
          rw [play_of_present node rest hstep] at hlabelled hsimple ⊢
          have hfirst : last.history ⊆ allEvents ((step.watcher, report) ::
              ((session.absorb step.watcher last).play node rest).1) := by
            intro event hevent
            rw [← List.mem_reverse, ← hevents] at hevent
            exact List.mem_append_left _ hevent
          have hsecond : allEvents ((session.absorb step.watcher last).play node rest).1 ⊆
              allEvents ((step.watcher, report) ::
                ((session.absorb step.watcher last).play node rest).1) :=
            List.subset_append_right _ _
          have hplaced : BlockWatch.PutsSimple agenda := by
            intro appointment hmem
            apply hputs step List.mem_cons_self
            exact Step.mem_actions_of_mem_schedule (hagenda ▸ List.mem_map_of_mem hmem)
          obtain ⟨hlast, events, hhistory, hthrift⟩ := hlegs.thrift (hlabelled.mono hfirst) hcache
            hplaced (hsimple.mono hfirst)
          obtain ⟨hended, hlater⟩ := ih (session.absorb step.watcher last) hlast hrest
            (hlabelled.mono hsecond) (hsimple.mono hsecond)
          rw [List.append_nil] at hhistory
          refine ⟨hended, (hthrift.trans hlater).perm ?_⟩
          show report.events ++ _ ~ _
          rw [hevents, hhistory]
          exact (List.perm_append_comm).trans ((List.reverse_perm events).append_left _)

/-- A gain that was made before a moment of the work after a run is in the cache at that moment. -/
theorem held_amid (node : Node σ υ) {session : Session σ} {place : Nat} {shift : Shift σ υ}
    (amid : session.Amid node place shift) {earlier : List Event}
    (labelled : Labelled shift.history)
    (held : ∀ ask ∈ gains earlier, session.cache.has ask = true) :
    ∀ ask ∈ gains (earlier ++ shift.history.reverse), shift.cache.has ask = true := by
  obtain ⟨watcher, agenda, -, hstrides⟩ := amid
  obtain ⟨events, hretains⟩ := hstrides.retains
  have hhistory : shift.history = events := hretains.history.trans (List.append_nil _)
  intro ask hask
  rw [gains_append] at hask
  rcases List.mem_append.mp hask with hask | hask
  · exact hretains.grows.has (held ask hask)
  · rw [hhistory, gains, List.filterMap_reverse, List.mem_reverse] at hask
    exact hretains.held labelled ask hask

/-- After some events, the questions of a step are for what the cache lacks at their moments and
what was never gained before. -/
structure AsksForNew (node : Node σ υ) (session : Session σ) (earlier : List Event)
    (step : Step υ) (report : Report) : Prop where
  all : report.asks = (session.requests node step).map Request.shown
  lacking : ∀ request ∈ session.requests node step,
    request.moment.cache.has request.ask = false
  new : ∀ request ∈ session.requests node step,
    request.ask ∉ gains (earlier ++ request.moment.history.reverse)

/-- An attempt asks for those of the transactions of its block that the cache lacks when they are
started, and for the block if the cache lacks it. -/
def AsksForMissing (node : Node σ υ) (pace : Pace) (shift : Shift σ υ) (number : String) : Prop :=
  ∀ block ready, shift.obtainBlock node number = (.ok block, ready) →
    ∃ events, (shift.attempt node pace).2.history = events ++ shift.history ∧
      events.reverse.filterMap Event.ask? =
        (if shift.cache.has (.block number) then [] else [(shift.time, .block number)]) ++
          (Resolution.requests node pace ready block.transactions).map
            fun launch => (launch.moment.time, .transaction launch.hash)

theorem asksForMissing (node : Node σ υ) (pace : Pace) {shift : Shift σ υ} {number : String}
    (candidate : shift.watcher.candidate shift.cache = .ok (some number)) :
    AsksForMissing node pace shift number := by
  intro block ready hobtained
  obtain ⟨⟨events, hhistory, hshown⟩, -⟩ := Shift.Asks.attempt node pace shift
  refine ⟨events, hhistory, ?_⟩
  rw [hshown]
  simp only [Shift.attemptRequests, candidate, hobtained, List.map_append, List.map_map]
  cases hcached : shift.cache.blocks.contains number with
  | true => simp only [Cache.has, hcached]; rfl
  | false => simp only [Cache.has, hcached]; rfl

/-- In every run of watchers on one cache, with failures that come and go, if every answer for a
transaction carries the hash that was asked for and no block lists a transaction twice: no block and
no transaction is gained twice; what a step asks for the cache lacks at that moment, and it was
never gained before; and an attempt, be it the first one on its block or not, asks for those of the
transactions that the cache lacks when they are started, and never for a block that was gained. -/
theorem nothing_gained_twice (settings : Settings) (node : Node σ υ) (state : σ) (watchers : Nat)
    (steps : List (Step υ)) (puts : PutsSimple steps)
    (labelled : Labelled (allEvents ((new settings state watchers).play node steps).1))
    (simple : Simple (allEvents ((new settings state watchers).play node steps).1)) :
    (gains (allEvents ((new settings state watchers).play node steps).1)).Nodup ∧
      (∀ early step late, steps = early ++ step :: late →
        ∀ report after,
          ((new settings state watchers).play node early).2.step node step =
            (some report, after) →
          AsksForNew node ((new settings state watchers).play node early).2
            (allEvents ((new settings state watchers).play node early).1) step report) ∧
      ∀ place shift, ((new settings state watchers).play node steps).2.Amid node place shift →
        Labelled shift.history →
        ∀ number, shift.watcher.candidate shift.cache = .ok (some number) →
          AsksForMissing node settings.pace shift number ∧
          (Ask.block number ∈ gains (allEvents ((new settings state watchers).play node steps).1 ++
              shift.history.reverse) →
            shift.cache.has (.block number) = true) := by
  obtain ⟨-, hthrift⟩ := play_thrift node steps (new settings state watchers) .empty puts labelled
    simple
  refine ⟨hthrift.once, ?_, ?_⟩
  · rintro early step late rfl report after hstep
    rw [play_append, play_of_present node late hstep, allEvents_append] at labelled simple
    have hreport : report.events ⊆ allEvents ((step.watcher, report) :: (after.play node late).1) :=
      List.subset_append_left _ _
    obtain ⟨-, hearly⟩ := play_thrift node early (new settings state watchers) .empty
      (fun other hother => puts other (List.mem_append_left _ hother))
      (labelled.mono (List.subset_append_left _ _)) (simple.mono (List.subset_append_left _ _))
    obtain ⟨hall, hrequests⟩ := asks_step node hstep
    refine ⟨hall, fun request hrequest => (hrequests request hrequest).2.2, ?_⟩
    intro request hrequest hgained
    obtain ⟨hamid, hseen, hlacks⟩ := hrequests request hrequest
    have hbefore : Labelled request.moment.history := by
      apply labelled.mono
      intro event hevent
      exact List.mem_append_right _ (hreport (hseen.subset (List.mem_reverse.mpr hevent)))
    rw [held_amid node hamid hbefore hearly.held request.ask hgained] at hlacks
    cases hlacks
  · intro place shift hamid hlabelled number hcandidate
    exact ⟨asksForMissing node settings.pace hcandidate,
      held_amid node hamid hlabelled hthrift.held _⟩

/-- A node that fails for one of the two transactions of its block. -/
def halfHearted : Script where
  head := some "0x5"
  blocks := ⟨[("0x5", ⟨"0xb", ["0x1", "0x2"]⟩)]⟩
  transactions := ⟨[("0x1", ⟨"0x1", "0xa", none, []⟩), ("0x2", ⟨"0x2", "0xa", none, []⟩)]⟩
  failingTransactions := ["0x2"]

/-- An attempt of one watcher fails, and so does one of another watcher on the same cache, which
puts a block into the cache itself. -/
def inVain : List (Step Script.Update) :=
  [.work 0 .observe [], .work 0 .attempt [],
    .work 1 .tick [(0, .cache (.addBlock "0x6" ⟨"0xc", []⟩))]]

/-- The block is there when the first watcher attempts it again, and the other transaction is all
that it asks for. -/
theorem nothing_gained_twice_inVain :
    PutsSimple inVain ∧
      Labelled (allEvents ((new {} halfHearted 2).play Script.node inVain).1) ∧
      Simple (allEvents ((new {} halfHearted 2).play Script.node inVain).1) ∧
      gains (allEvents ((new {} halfHearted 2).play Script.node inVain).1) =
        [.block "0x5", .transaction "0x1"] ∧
      (gains (allEvents ((new {} halfHearted 2).play Script.node inVain).1)).Nodup ∧
      ∃ shift : Shift Script Script.Update,
        ((new {} halfHearted 2).play Script.node inVain).2.Amid Script.node 0 shift ∧
          AsksForMissing Script.node ({} : Settings).pace shift "0x5" ∧
          shift.cache.has (.block "0x5") = true := by
  have hputs : PutsSimple inVain := by
    simp [PutsSimple, inVain, Step.actions, Action.block?, Cache.Call.block?]
  have hlabels : (allEvents ((new {} halfHearted 2).play Script.node inVain).1).filterMap
      Event.label? = [("0x1", "0x1")] := by decide +kernel
  have hblocks : (allEvents ((new {} halfHearted 2).play Script.node inVain).1).filterMap
      Event.block? = [⟨"0xb", ["0x1", "0x2"]⟩] := by decide +kernel
  have hlabelled : Labelled (allEvents ((new {} halfHearted 2).play Script.node inVain).1) := by
    rw [Labelled, hlabels]
    simp
  have hsimple : Simple (allEvents ((new {} halfHearted 2).play Script.node inVain).1) := by
    rw [Simple, hblocks]
    simp
  have hgains : gains (allEvents ((new {} halfHearted 2).play Script.node inVain).1) =
      [.block "0x5", .transaction "0x1"] := by decide +kernel
  have hpresent : ((new {} halfHearted 2).play Script.node inVain).2.watchers[0]? ≠ none := by
    decide +kernel
  have hamid : ((new {} halfHearted 2).play Script.node inVain).2.Amid Script.node 0 _ :=
    ⟨_, ([] : List (Appointment Script.Update)), (Option.getD_of_ne_none hpresent {}).symm, .refl⟩
  obtain ⟨honce, -, hmissing⟩ :=
    nothing_gained_twice {} Script.node halfHearted 2 inVain hputs hlabelled hsimple
  have hnone : Labelled ([] : List Event) := fun _ hlabel => absurd hlabel List.not_mem_nil
  obtain ⟨hasks, hheld⟩ := hmissing 0 _ hamid hnone "0x5" (by decide +kernel)
  refine ⟨hputs, hlabelled, hsimple, hgains, honce, _, hamid, hasks, hheld ?_⟩
  rw [gains_append, hgains]
  exact List.mem_append_left _ List.mem_cons_self

end Session

end BlockWatch
