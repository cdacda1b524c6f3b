import BlockWatch.Proofs.Session.Run
import BlockWatch.Proofs.Shift.Soundness
import Mathlib

/-!
# Soundness of a session

Normative source: SPEC_FULL.md, section 3:

    Invariant: a key present in `processed` must also be present in `blocks`.
    Invariant: whenever `currentBlock != ""`, `processed` in the Cache contains it.

`sound_throughout` states both invariants at every moment of every run, whether the watchers are
idle or one of them is at work (`Session.Amid`), together with what they rest on: a head and a
current block that are remembered are quantities, and a watcher with a current block remembers a
head.

A watcher at work only lets the cache grow, which is all that the others need (`Sound.absorb`).
What the work of one watcher preserves is in `Proofs.Shift.Soundness`.
-/

set_option autoImplicit false

namespace BlockWatch.Session

variable {σ υ : Type}

/-- A session whose cache is sound and on whose cache every watcher can rely. -/
structure Sound (session : Session σ) : Prop where
  cache : session.cache.Sound
  watchers : ∀ watcher ∈ session.watchers, watcher.Sound session.cache

/-- A shift through which the watcher at a place can come: it was sent to work, whatever is on the
agenda, and this is how things are some strides later.  Whatever happens while it waits for an
answer is a stride of its own, so this may be in the middle of an attempt. -/
def Amid (node : Node σ υ) (session : Session σ) (place : Nat) (shift : Shift σ υ) : Prop :=
  ∃ watcher agenda, session.watchers[place]? = some watcher ∧
    Shift.Strides node session.pace
      { node := session.node, cache := session.cache, watcher, agenda } shift

theorem Sound.absorb {node : Node σ υ} {session : Session σ} (sound : session.Sound)
    {place : Nat} {pace : Pace} {start last : Shift σ υ}
    (watcher : session.watchers[place]? = some start.watcher) (cache : start.cache = session.cache)
    (strides : Shift.Strides node pace start last) : (session.absorb place last).Sound := by
  have hstart : start.watcher.Sound start.cache :=
    cache ▸ sound.watchers _ (List.mem_of_getElem? watcher)
  refine ⟨strides.cacheSound (cache ▸ sound.cache), ?_⟩
  intro other hother
  rcases List.mem_or_eq_of_mem_set hother with hold | rfl
  · exact (sound.watchers other hold).grow (cache ▸ strides.grows)
  · exact strides.watcherSound hstart

theorem Sound.step {session : Session σ} (sound : session.Sound) (node : Node σ υ)
    (step : Step υ) : (session.step node step).2.Sound := by
  cases hwatcher : session.watchers[step.watcher]? with
  | none =>
      rw [step_of_absent node hwatcher]
      exact sound
  | some watcher =>
      obtain ⟨start, last, report, hstep, -, rfl, hcache, -, -, hstrides⟩ :=
        step_of_present node hwatcher
      rw [hstep]
      exact sound.absorb hwatcher hcache hstrides

/-- Run lemma. -/
theorem Sound.play (node : Node σ υ) (steps : List (Step υ)) :
    ∀ session : Session σ, session.Sound → (session.play node steps).2.Sound := by
  induction steps with
  | nil => exact fun _ sound => sound
  | cons step rest ih => exact fun session sound => ih _ (sound.step node step)

theorem sound_new (settings : Settings) (state : σ) (watchers : Nat) :
    (new settings state watchers).Sound where
  cache number h := by cases h
  watchers watcher h := List.eq_of_mem_replicate h ▸ Watcher.sound_new _

/-- After every run of watchers on one cache, and at every moment of the next work of one of them,
whatever the node answers and whatever is done meanwhile: every mark in the cache is that of a block
in it; every watcher remembers no head or one that is a quantity; and a watcher with a current block
remembers a head, and its current block is a quantity and processed in the cache. -/
theorem sound_throughout (settings : Settings) (node : Node σ υ) (state : σ) (watchers : Nat)
    (steps : List (Step υ)) :
    ((new settings state watchers).play node steps).2.Sound ∧
      ∀ (place : Nat) (shift : Shift σ υ),
        ((new settings state watchers).play node steps).2.Amid node place shift →
          (((new settings state watchers).play node steps).2.absorb place shift).Sound := by
  have hsound : ((new settings state watchers).play node steps).2.Sound :=
    Sound.play node steps _ (sound_new settings state watchers)
  refine ⟨hsound, ?_⟩
  rintro place shift ⟨watcher, agenda, hwatcher, hstrides⟩
  exact hsound.absorb hwatcher rfl hstrides

/-- A node with two blocks, of which it announces the first one first. -/
def twoBlocks : Script where
  head := some "0x6"
  queue := [some "0x5"]
  blocks := ⟨[("0x5", ⟨"0xb", []⟩), ("0x6", ⟨"0xc", ["0x1"]⟩)]⟩

/-- A watcher has processed the first block and has seen the second one announced. -/
def halfway : List (Step Script.Update) :=
  [.work 0 .tick [], .work 0 .observe []]

/-- In the middle of the attempt on the second block, which the cache has by then. -/
theorem sound_throughout_halfway :
    ∃ shift : Shift Script Script.Update,
      ((new {} twoBlocks 2).play Script.node halfway).2.Amid Script.node 0 shift ∧
        shift.watcher.current = some "0x5" ∧ shift.cache.isProcessed "0x6" = .ok false ∧
        (((new {} twoBlocks 2).play Script.node halfway).2.absorb 0 shift).Sound := by
  have hpresent : ((new {} twoBlocks 2).play Script.node halfway).2.watchers[0]? =
      some { current := some "0x5", latest := some "0x6" } := by cbv
  have htold : Script.node.answer (.block "0x6")
      ((new {} twoBlocks 2).play Script.node halfway).2.node =
        (.ok ⟨"0xc", ["0x1"]⟩, ((new {} twoBlocks 2).play Script.node halfway).2.node) := by cbv
  have hamid : ((new {} twoBlocks 2).play Script.node halfway).2.Amid Script.node 0 _ :=
    ⟨_, [], hpresent, .tail (.single (.move (.ask (.block "0x6")))) (.move (.learn htold))⟩
  exact ⟨_, hamid, rfl, by cbv,
    (sound_throughout {} Script.node twoBlocks 2 halfway).2 0 _ hamid⟩

end BlockWatch.Session
