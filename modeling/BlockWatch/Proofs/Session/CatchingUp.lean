import BlockWatch.Proofs.Shift.Ticks

/-!
# Catching up

Normative source: SPEC_FULL.md, section 4.3, on `processNextBlock`:

    advances at most one block per tick, by design, to bound load on the upstream RPC source

`catches_up` is about any moment of any run after which the node announces one head and answers
every question, and the watcher only ticks.  What others do is not restricted: actions, other
watchers and their work may come in between (`TicksSince`).  Every tick processes exactly one block,
with consecutive numbers up to the head, and further ticks ask for the head alone (`CatchesUp`).
Heads below zero are excluded, because a watcher that remembers one can be stranded
(`Proofs.Stranded`).

The invariant is that the counter of the watcher ticks along (`TicksAlong`): it is the counter at
the beginning after as many ticks as the watcher has made.  A stride of the watcher either is a tick
or leaves the counter alone, and `Proofs.Shift.Ticks` says what one tick does on a node that serves.
-/

set_option autoImplicit false

namespace BlockWatch

variable {σ υ : Type}

/-! ## The invariant -/

theorem Watcher.natural_of_counter {watcher : Watcher}
    (current : ∀ n, watcher.counter.current = some n → 0 ≤ n)
    (head : ∀ n, watcher.counter.head = some n → 0 ≤ n) : watcher.Natural where
  current text n htext hn :=
    current n (by simp [counter, htext, Quantity.value?_of_decode hn])
  latest text n htext hn :=
    head n (by simp [counter, htext, Quantity.value?_of_decode hn])

theorem Watcher.Natural.tick {watcher after : Watcher} (natural : watcher.Natural) {h : Int}
    (nonneg : 0 ≤ h) (ticked : after.counter = watcher.counter.tick h) : after.Natural := by
  have hcurrent : ∀ n, watcher.counter.current = some n → 0 ≤ n := by
    intro n hn
    obtain ⟨text, htext, hvalue⟩ := Option.bind_eq_some_iff.mp hn
    exact natural.current text n htext (Quantity.decode_of_value? hvalue)
  refine natural_of_counter ?_ ?_
  · intro n hn
    rw [ticked] at hn
    by_cases hdue : watcher.counter.first h ≤ h
    · rw [Counter.tick_of_due hdue] at hn
      cases hn
      cases hpast : watcher.counter.current with
      | none => simpa only [Counter.first, hpast] using nonneg
      | some past =>
          have hpositive := hcurrent past hpast
          simp only [Counter.first, hpast]
          omega
    · rw [Counter.tick_of_beyond (Int.not_le.mp hdue)] at hn
      exact hcurrent n hn
  · intro n hn
    rw [ticked] at hn
    exact Option.some.inj hn ▸ nonneg

/-- What is kept up for a watcher that began with a counter and hears of the head `h` only: it is
sound and natural, and the counter has ticked once for each attempt. -/
structure TicksAlong (counter : Counter) (h : Int) (since : List Event) (watcher : Watcher)
    (cache : Cache) : Prop where
  sound : watcher.Sound cache
  natural : watcher.Natural
  counter : watcher.counter = (Counter.tick h)^[(attempts since).length] counter

namespace TicksAlong

variable {counter : Counter} {h : Int} {since : List Event}

/-- Monotone in the cache. -/
theorem grow {watcher : Watcher} {before after : Cache}
    (along : TicksAlong counter h since watcher before) (grows : Cache.Grows before after) :
    TicksAlong counter h since watcher after where
  sound := along.sound.grow grows
  natural := along.natural
  counter := along.counter

/-- Preserved by a pause. -/
theorem pause {node : Node σ υ} {shift after : Shift σ υ} (pause : Shift.Pause node shift after)
    (along : TicksAlong counter h since shift.watcher shift.cache) :
    ∃ fresh, after.history = fresh ++ shift.history ∧
      TicksAlong counter h (since ++ fresh.reverse) after.watcher after.cache := by
  cases pause with
  | @keep appointment rest next =>
      have hmoves : Shift.Moves node shift { shift.keep node appointment with agenda := rest } :=
        .single (.keep next)
      obtain ⟨fresh, _, account⟩ := Shift.Account.of_moves hmoves
      have hnone : attempts fresh.reverse = [] := by
        rw [attempts, List.filterMap_reverse]
        exact congrArg List.reverse (attempts_of_underWay account.underWay)
      refine ⟨fresh, account.history, hmoves.watcherSound along.sound, hmoves.natural along.natural,
        ?_⟩
      rw [hmoves.counter, along.counter, attempts_append, hnone, List.append_nil]
  | pass later => exact ⟨[], rfl, by simpa using ⟨along.sound, along.natural, along.counter⟩⟩
  | settle =>
      obtain ⟨told, hsettle, htold⟩ := Shift.settle_told shift
      have hnone : attempts told.reverse = [] :=
        attempts_of_tidings fun event hevent => htold event (List.mem_reverse.mp hevent)
      rw [hsettle]
      refine ⟨told, rfl, along.sound.congr rfl rfl, along.natural.congr rfl rfl, ?_⟩
      rw [attempts_append, hnone, List.append_nil, ← along.counter]
      rfl
  | loop running stopped loops handle =>
      refine ⟨[], rfl, along.sound.congr rfl rfl, along.natural.congr rfl rfl, ?_⟩
      rw [List.reverse_nil, List.append_nil, ← along.counter]
      rfl

/-- A tick at a node that serves is one tick of the counter. -/
theorem tick (node : Node σ υ) (pace : Pace) {shift : Shift σ υ} {head : String}
    {fresh : List Event} (along : TicksAlong counter h since shift.watcher shift.cache)
    (decoded : Quantity.decode head = .ok h) (nonneg : 0 ≤ h)
    (history : (shift.tick node pace).history = fresh ++ shift.history)
    (served : Served head fresh) :
    TicksAlong counter h (since ++ fresh.reverse) (shift.tick node pace).watcher
      (shift.tick node pace).cache := by
  obtain ⟨hcounter, hone, -⟩ :=
    Shift.tick_of_served node pace along.sound along.natural decoded nonneg history served
  refine ⟨(Shift.legs_tick node pace shift).strides.watcherSound along.sound,
    along.natural.tick nonneg hcounter, ?_⟩
  have hlength : (attempts (since ++ fresh.reverse)).length = (attempts since).length + 1 := by
    rw [attempts_append, List.length_append, ← hone, attempts, attempts, attempts,
      List.filterMap_reverse, List.length_reverse]
  rw [hcounter, hlength, Function.iterate_succ_apply', ← along.counter]

/-- Preserved while the watcher only ticks. -/
theorem beats {node : Node σ υ} {pace : Pace} {start last : Shift σ υ} {head : String}
    (beats : Shift.Beats node pace start last)
    (along : TicksAlong counter h since start.watcher start.cache)
    (decoded : Quantity.decode head = .ok h) (nonneg : 0 ≤ h) :
    ∃ fresh, last.history = fresh ++ start.history ∧
      (Served head fresh →
        TicksAlong counter h (since ++ fresh.reverse) last.watcher last.cache) := by
  induction beats with
  | refl => exact ⟨[], rfl, fun _ => by simpa using along⟩
  | @tail middle last _ beat ih =>
      obtain ⟨early, hearly, hkept⟩ := ih
      obtain ⟨late, hlate⟩ := (beat.legs.strides).suffixes.1
      refine ⟨late ++ early, by rw [← hlate, hearly, List.append_assoc], ?_⟩
      intro served
      obtain ⟨hservedLate, hservedEarly⟩ := served_append.mp served
      rw [List.reverse_append, ← List.append_assoc]
      cases beat with
      | pause pause =>
          obtain ⟨fresh, hfresh, hpaused⟩ := (hkept hservedEarly).pause pause
          rw [← hlate] at hfresh
          exact List.append_cancel_right hfresh ▸ hpaused
      | tick => exact (hkept hservedEarly).tick node pace decoded nonneg hlate.symm hservedLate

end TicksAlong

namespace Session

/-! ## Runs -/

/-- Run lemma: preserved by a run in which the watcher only ticks. -/
theorem ticksAlong_play (node : Node σ υ) (place : Nat) {counter : Counter} {head : String}
    {h : Int} (decoded : Quantity.decode head = .ok h) (nonneg : 0 ≤ h) (steps : List (Step υ))
    (ticking : ∀ step ∈ steps, step.watcher = place → step.OnlyTicks) {session : Session σ}
    {since : List Event} {watcher last : Watcher}
    (along : TicksAlong counter h since watcher session.cache)
    (hwatcher : session.watchers[place]? = some watcher)
    (hlast : (session.play node steps).2.watchers[place]? = some last)
    (served : Served head (eventsAt place (session.play node steps).1)) :
    TicksAlong counter h (since ++ eventsAt place (session.play node steps).1) last
      (session.play node steps).2.cache := by
  rw [play_eq_follow] at hlast served ⊢
  obtain ⟨kept, hkept, halong⟩ := (strides_step node).own place
    (fun events watcher cache =>
      Served head events → TicksAlong counter h (since ++ events) watcher cache)
    (fun hpast hgrows served => (hpast served).grow hgrows) steps session watcher [] hwatcher
    (by
      intro step hstep hplace session watcher events hpresent hpast
      obtain ⟨agenda, last, report, htaken, hreport, -, -, -, hbeats⟩ := step_told node hpresent
      refine ⟨report, last, htaken, fun hserved => ?_⟩
      obtain ⟨hearly, hlate⟩ := served_append.mp hserved
      obtain ⟨fresh, hfresh, hafter⟩ :=
        (hpast hearly).beats (hbeats (ticking step hstep hplace)) decoded nonneg
      rw [List.append_nil] at hfresh
      rw [hreport, hfresh] at hlate ⊢
      rw [← List.append_assoc]
      exact hafter (served_reverse.mp hlate))
    (fun _ => by simpa using along)
  rw [hlast] at hkept
  cases hkept
  exact halong served

/-- A moment between two ticks of a watcher that has done nothing but tick since the moment `start`
of its work, and what was observed of it since. -/
inductive TicksSince (node : Node σ υ) (session : Session σ) (place : Nat) (start : Shift σ υ) :
    List Event → Shift σ υ → Prop
  /-- it is still on the same errand -/
  | same {fresh : List Event} {shift : Shift σ υ}
      (beats : Shift.Beats node session.pace start shift)
      (history : shift.history = fresh ++ start.history) :
      TicksSince node session place start fresh.reverse shift
  /-- it finished that errand, and after a run in which it only ticked it is on another one -/
  | later {fresh : List Event} {finished shift : Shift σ υ} {steps : List (Step υ)}
      {watcher : Watcher} {agenda : List (Appointment υ)}
      (beats : Shift.Beats node session.pace start finished)
      (history : finished.history = fresh ++ start.history)
      (ticking : ∀ step ∈ steps, step.watcher = place → step.OnlyTicks)
      (present : ((session.absorb place finished).play node steps).2.watchers[place]? =
        some watcher)
      (again : Shift.Beats node session.pace
        { node := ((session.absorb place finished).play node steps).2.node
          cache := ((session.absorb place finished).play node steps).2.cache
          watcher, agenda } shift) :
      TicksSince node session place start
        (fresh.reverse ++ eventsAt place ((session.absorb place finished).play node steps).1 ++
          shift.history.reverse) shift

theorem TicksSince.ticksAlong {node : Node σ υ} {session : Session σ} {place : Nat}
    {start shift : Shift σ υ} {since : List Event} {head : String} {h : Int}
    (ticks : session.TicksSince node place start since shift)
    (present : ∃ watcher, session.watchers[place]? = some watcher)
    (decoded : Quantity.decode head = .ok h) (nonneg : 0 ≤ h)
    (sound : start.watcher.Sound start.cache) (natural : start.watcher.Natural)
    (served : Served head since) :
    TicksAlong start.watcher.counter h since shift.watcher shift.cache := by
  have hbegin : TicksAlong start.watcher.counter h [] start.watcher start.cache :=
    ⟨sound, natural, rfl⟩
  cases ticks with
  | @same fresh _ beats history =>
      obtain ⟨events, hevents, hkept⟩ := hbegin.beats beats decoded nonneg
      obtain rfl : events = fresh := List.append_cancel_right (hevents.symm.trans history)
      exact hkept (served_reverse.mp served)
  | @later fresh finished _ steps watcher agenda beats history ticking hwatcher again =>
      obtain ⟨hearly, hlast⟩ := served_append.mp served
      obtain ⟨hfirst, hmiddle⟩ := served_append.mp hearly
      obtain ⟨events, hevents, hkept⟩ := hbegin.beats beats decoded nonneg
      obtain rfl : events = fresh := List.append_cancel_right (hevents.symm.trans history)
      obtain ⟨old, hold⟩ := present
      have hplayed := ticksAlong_play node place decoded nonneg steps ticking
        (hkept (served_reverse.mp hfirst)) (watchers_absorb_self hold finished) hwatcher hmiddle
      obtain ⟨further, hfurther, hended⟩ := hplayed.beats again decoded nonneg
      rw [List.append_nil] at hfurther
      rw [hfurther] at hlast ⊢
      exact hended (served_reverse.mp hlast)

/-! ## The way up -/

end Session

/-- The number with which a watcher goes on while the head is `h`: the one after that of its current
block, or that of the head where there is none. -/
def Watcher.GoesOnAt (watcher : Watcher) (h first : Int) : Prop :=
  match watcher.current with
  | none => first = h
  | some current => Quantity.decode current = .ok (first - 1)

theorem Watcher.Sound.goesOnAt {watcher : Watcher} {cache : Cache} (sound : watcher.Sound cache)
    (h : Int) : watcher.GoesOnAt h (watcher.counter.first h) := by
  cases hcurrent : watcher.current with
  | none => simp [GoesOnAt, Counter.first, counter, hcurrent]
  | some current =>
      obtain ⟨-, ⟨n, hn⟩, -⟩ := sound.current current hcurrent
      simp [GoesOnAt, Counter.first, counter, hcurrent, Quantity.value?_of_decode hn, hn]

namespace Session

/-- How the tick after `k` others goes, if the first one began with the number `first`. -/
structure CatchesUp (node : Node σ υ) (pace : Pace) (h first : Int) (k : Nat) (shift : Shift σ υ)
    (fresh : List Event) : Prop where
  processes : first + k ≤ h → Shift.Processes (shift.tick node pace) fresh (first + k)
  idles : h < first + k → Shift.Idles node shift (shift.tick node pace) fresh
  arrived : first ≤ h → h < first + k →
    ∃ number, shift.watcher.current = some number ∧ Quantity.decode number = .ok h

/-- In every run of watchers on one cache and at every moment of the work of a watcher that has
heard of no negative head: if the node from then on announces one head `h` that is not negative and
answers every question, and the watcher only ticks, whatever else is done, then it starts with `h`
if it has no current block and otherwise with the number after that of its current block; as long as
that is not beyond `h` every tick processes exactly the block with the next number, up to `h`; and
from then on a tick asks for the head and nothing else, tells nobody anything and leaves the current
block and the cache alone. -/
theorem catches_up (settings : Settings) (node : Node σ υ) (state : σ) (watchers : Nat)
    (steps : List (Step υ)) (place : Nat) {start shift : Shift σ υ} {since fresh : List Event}
    {head : String} {h : Int}
    (hstart : ((new settings state watchers).play node steps).2.Amid node place start)
    (hheads : HeadsNatural (eventsAt place ((new settings state watchers).play node steps).1 ++
      start.history.reverse))
    (hticks : ((new settings state watchers).play node steps).2.TicksSince node place start since
      shift)
    (hhead : Quantity.decode head = .ok h) (hnonneg : 0 ≤ h)
    (hfresh : (shift.tick node settings.pace).history = fresh ++ shift.history)
    (hserved : Served head (since ++ fresh)) :
    ∃ first, start.watcher.GoesOnAt h first ∧
      CatchesUp node settings.pace h first (attempts since).length shift fresh := by
  have hcounting := counting_throughout settings node state watchers steps place hstart
  have hpresent : ∃ watcher, ((new settings state watchers).play node steps).2.watchers[place]? =
      some watcher := by
    obtain ⟨watcher, -, hwatcher, -⟩ := hstart
    exact ⟨watcher, hwatcher⟩
  obtain ⟨hsince, hlast⟩ := served_append.mp hserved
  have halong := hticks.ticksAlong hpresent hhead hnonneg hcounting.sound
    (hcounting.natural hheads) hsince
  obtain ⟨-, -, hprocesses, hidles⟩ := Shift.tick_of_served node settings.pace halong.sound
    halong.natural hhead hnonneg hfresh hlast
  have hfirst := Counter.first_iterate_tick start.watcher.counter h (attempts since).length
  rw [← halong.counter] at hfirst
  refine ⟨_, hcounting.sound.goesOnAt h, ?_, ?_, ?_⟩
  · intro hbelow
    have hnow : shift.watcher.counter.first h =
        start.watcher.counter.first h + (attempts since).length := by
      rw [hfirst, if_pos (by omega)]
      omega
    rw [← hnow] at hbelow ⊢
    exact hprocesses hbelow
  · intro hbeyond
    apply hidles
    rw [hfirst]
    split <;> omega
  · intro hbelow hbeyond
    have hnow : shift.watcher.counter.first h = h + 1 := by
      rw [hfirst, if_pos hbelow]
      omega
    obtain ⟨number, hnumber, hvalue⟩ :=
      Option.bind_eq_some_iff.mp (Counter.current_of_first hnow)
    exact ⟨number, hnumber, Quantity.decode_of_value? hvalue⟩

/-- A node that announces a head, and then for good another one in a spelling that is not canonical,
with all blocks up to that. -/
def summit : Script where
  head := some "0x07"
  queue := [some "0x05"]
  blocks := ⟨[("0x05", ⟨"0xb", []⟩), ("0x6", ⟨"0xc", ["0x1"]⟩), ("0x7", ⟨"0xd", []⟩)]⟩
  transactions := ⟨[("0x1", ⟨"0x1", "0xa", none, []⟩)]⟩

/-- A watcher that has processed the first head goes on to tick, and somebody subscribes
meanwhile. -/
def ascent (ticks : Nat) : Shift Script Script.Update :=
  (Shift.tick Script.node ({} : Settings).pace)^[ticks]
    { node := ((new {} summit 2).play Script.node [.work 0 .tick []]).2.node
      cache := ((new {} summit 2).play Script.node [.work 0 .tick []]).2.cache
      watcher := (((new {} summit 2).play Script.node [.work 0 .tick []]).2.watchers[0]?).getD {}
      agenda := [⟨0, 0, .subscribe "0xA"⟩] }

/-- The second tick on the way processes the block at the summit, and the third one idles. -/
theorem catches_up_summit :
    ((new {} summit 2).play Script.node [.work 0 .tick []]).2.Amid Script.node 0 (ascent 0) ∧
      (∃ fresh, (ascent 2).history = fresh ++ (ascent 1).history ∧
        Shift.Processes (ascent 2) fresh 7) ∧
      ∃ fresh, (ascent 3).history = fresh ++ (ascent 2).history ∧
        Shift.Idles Script.node (ascent 2) (ascent 3) fresh := by
  have hpresent :
      ((new {} summit 2).play Script.node [.work 0 .tick []]).2.watchers[0]? ≠ none := by
    decide +kernel
  have hamid : ((new {} summit 2).play Script.node [.work 0 .tick []]).2.Amid Script.node 0
      (ascent 0) := ⟨_, _, (Option.getD_of_ne_none hpresent {}).symm, .refl⟩
  have hheard : heardHeads (eventsAt 0
      ((new {} summit 2).play Script.node [.work 0 .tick []]).1 ++ (ascent 0).history.reverse) =
        [.ok "0x05"] := by cbv
  have hheads : HeadsNatural (eventsAt 0
      ((new {} summit 2).play Script.node [.work 0 .tick []]).1 ++
        (ascent 0).history.reverse) := by
    intro head n hhead hn
    rw [hheard] at hhead
    obtain rfl : head = "0x05" := by simpa using hhead
    have hfive : (5 : Int) = n := Except.ok.inj hn
    omega
  have hseven : Quantity.decode "0x07" = .ok 7 := rfl
  have htick : ∀ ticks, ascent (ticks + 1) =
      (ascent ticks).tick Script.node ({} : Settings).pace :=
    fun ticks => Function.iterate_succ_apply' _ _ _
  have hbeats : ∀ ticks,
      Shift.Beats Script.node ({} : Settings).pace (ascent 0) (ascent ticks) := by
    intro ticks
    induction ticks with
    | zero => exact .refl
    | succ ticks ih => exact ih.tail (htick ticks ▸ .tick)
  have hclimbs : ∀ ticks, Served "0x07" (ascent (ticks + 1)).history →
      ∃ first fresh, (ascent 0).watcher.GoesOnAt 7 first ∧
        (ascent (ticks + 1)).history = fresh ++ (ascent ticks).history ∧
        CatchesUp Script.node ({} : Settings).pace 7 first
          (attempts (ascent ticks).history.reverse).length (ascent ticks) fresh := by
    intro ticks hserved
    obtain ⟨fresh, hfresh⟩ :=
      (Shift.legs_tick Script.node ({} : Settings).pace (ascent ticks)).strides.suffixes.1
    rw [htick, ← hfresh] at hserved
    obtain ⟨hlate, hearly⟩ := served_append.mp hserved
    obtain ⟨first, hfirst, hcaught⟩ := catches_up {} Script.node summit 2 [.work 0 .tick []] 0 hamid
      hheads (.same (hbeats ticks) (List.append_nil _).symm) hseven (by omega) hfresh.symm
      (served_append.mpr ⟨served_reverse.mpr hearly, hlate⟩)
    exact ⟨first, fresh, hfirst, htick ticks ▸ hfresh.symm, hcaught⟩
  have hfirst : ∀ first, (ascent 0).watcher.GoesOnAt 7 first → first = 6 := by
    intro first hgoes
    have hcurrent : (ascent 0).watcher.current = some "0x05" := by decide +kernel
    rw [Watcher.GoesOnAt, hcurrent] at hgoes
    have hfive : (5 : Int) = first - 1 := Except.ok.inj hgoes
    omega
  constructor
  · exact hamid
  constructor
  · obtain ⟨first, fresh, hgoes, hfresh, hcaught⟩ := hclimbs 1 (by decide +kernel)
    rw [hfirst first hgoes, show (attempts (ascent 1).history.reverse).length = 1 by decide +kernel]
      at hcaught
    exact ⟨fresh, hfresh, htick 1 ▸ hcaught.processes (by decide)⟩
  · obtain ⟨first, fresh, hgoes, hfresh, hcaught⟩ := hclimbs 2 (by decide +kernel)
    rw [hfirst first hgoes, show (attempts (ascent 2).history.reverse).length = 2 by decide +kernel]
      at hcaught
    exact ⟨fresh, hfresh, htick 2 ▸ hcaught.idles (by decide)⟩

end Session

end BlockWatch
