import BlockWatch.Proofs.Candidate
import BlockWatch.Proofs.Shift.Head
import BlockWatch.Proofs.Shift.Strides

/-!
# What a watcher and its cache can rely on

Normative source: SPEC_FULL.md, section 3:

    Invariant: a key present in `processed` must also be present in `blocks`.
    Invariant: whenever `currentBlock != ""`, `processed` in the Cache contains it.

The cache marks only blocks that it has (`Cache.Sound`).  The newest head that a watcher remembers
is a quantity, and so is its current block, which the cache has as processed; and a watcher with a
current block remembers a head (`Watcher.Sound`).  Every stride keeps this up, so it holds between
the strides too: whatever is done while a watcher waits is a stride of its own.

A stride does one of three things to what matters here (`Effect`).  The two invariants are proved by
cases on that, and not on the kinds of strides.
-/

set_option autoImplicit false

namespace BlockWatch

variable {σ υ : Type}

/-! ## Caches -/

namespace Cache

/-- Every mark is that of a block in the cache. -/
def Sound (cache : Cache) : Prop := ∀ number ∈ cache.processed, cache.blocks.contains number = true

theorem isProcessed_eq_true_iff {cache : Cache} {number : String} :
    cache.isProcessed number = .ok true ↔
      cache.blocks.contains number = true ∧ number ∈ cache.processed := by
  unfold isProcessed
  by_cases h : cache.blocks.contains number = true
  · simp [h]
  · simp [h]

/-- Marking preserves soundness, because only a cached block can be marked. -/
theorem Sound.markProcessed {cache marked : Cache} {number : String} (sound : cache.Sound)
    (h : cache.markProcessed number = .ok marked) : marked.Sound := by
  have hnew := (isProcessed_eq_true_iff.mp (isProcessed_of_markProcessed h)).1
  obtain ⟨processed, rfl, -, hiff⟩ := markProcessed_eq h
  intro other hother
  rcases (hiff other).mp hother with hold | rfl
  · exact sound other hold
  · exact hnew

theorem Sound.learn {cache : Cache} (sound : cache.Sound) (ask : Ask) (answer : ask.Answer) :
    (cache.learn ask answer).Sound := by
  intro number hnumber
  rw [learn_processed] at hnumber
  exact (grows_learn cache ask answer).containsBlock (sound number hnumber)

theorem Sound.perform {cache : Cache} (sound : cache.Sound) (call : Call) :
    (cache.perform call).2.Sound := by
  intro number hnumber
  have hgrown := grows_perform cache call
  cases call with
  | markProcessed marked =>
      simp only [Cache.perform, change] at hnumber hgrown ⊢
      cases hmark : cache.markProcessed marked with
      | error failure =>
          rw [hmark] at hnumber
          exact sound number hnumber
      | ok after =>
          rw [hmark] at hnumber
          exact sound.markProcessed hmark number hnumber
  | _ =>
      -- no other operation marks anything
      refine hgrown.containsBlock (sound number ?_)
      rcases processed_perform hnumber with h | h
      · exact h
      · cases h

end Cache

/-! ## Watchers -/

namespace Watcher

/-- What a watcher remembers makes sense, given its cache. -/
structure Sound (watcher : Watcher) (cache : Cache) : Prop where
  latest : ∀ head, watcher.latest = some head → ∃ n, Quantity.decode head = .ok n
  current : ∀ number, watcher.current = some number →
    watcher.latest ≠ none ∧ (∃ n, Quantity.decode number = .ok n) ∧
      cache.isProcessed number = .ok true

theorem sound_new (cache : Cache) : ({} : Watcher).Sound cache where
  latest head h := by cases h
  current number h := by cases h

namespace Sound

variable {watcher : Watcher} {cache : Cache}

theorem grow {after : Cache} (sound : watcher.Sound cache) (grows : Cache.Grows cache after) :
    watcher.Sound after where
  latest := sound.latest
  current number h :=
    ⟨(sound.current number h).1, (sound.current number h).2.1,
      grows.isProcessed (sound.current number h).2.2⟩

theorem congr {other : Watcher} (sound : watcher.Sound cache)
    (current : other.current = watcher.current) (latest : other.latest = watcher.latest) :
    other.Sound cache where
  latest head h := sound.latest head (latest ▸ h)
  current number h := latest ▸ sound.current number (current ▸ h)

theorem hear (sound : watcher.Sound cache) (answer : Except Failure String) :
    (watcher.hear answer).Sound cache := by
  rcases watcher.hear_eq answer with h | ⟨head, n, -, hdecode, h⟩
  · rw [h]
    exact sound
  · rw [h]
    refine ⟨?_, fun number hnumber => ⟨by simp, (sound.current number hnumber).2⟩⟩
    intro other hother
    cases hother
    exact ⟨n, hdecode⟩

/-- A chosen block that is marked can become the current one. -/
theorem process {chooser : Watcher} {seen marked : Cache} {number : String}
    (sound : watcher.Sound cache) (candidate : chooser.candidate seen = .ok (some number))
    (latest : watcher.latest = chooser.latest) (mark : cache.markProcessed number = .ok marked) :
    ({ watcher with current := some number } : Watcher).Sound marked := by
  obtain ⟨head, n, m, bound, hlatest, -, hm, -⟩ := candidate_eq_some candidate
  refine ⟨sound.latest, ?_⟩
  intro other hother
  cases hother
  refine ⟨?_, ⟨m, hm⟩, Cache.isProcessed_of_markProcessed mark⟩
  simp [latest, hlatest]

end Sound

end Watcher

/-! ## What a stride changes -/

namespace Shift

/-- What a stride does to the cache and to the blocks that the watcher remembers, apart from what
happens while it waits: nothing, or the watcher hears of a head, or it processes a block that it
had chosen. -/
inductive Effect (node : Node σ υ) (shift after : Shift σ υ) : Prop
  | waits {worked : Shift σ υ} (moves : Moves node shift worked)
      (history : worked.history <:+ after.history) (cache : after.cache = worked.cache)
      (current : after.watcher.current = worked.watcher.current)
      (latest : after.watcher.latest = worked.watcher.latest)
  | hears {worked : Shift σ υ} {answer : Except Failure String} (moves : Moves node shift worked)
      (history : worked.history <:+ after.history) (heard : answer ∈ heardHeads after.history)
      (cache : after.cache = worked.cache) (watcher : after.watcher = worked.watcher.hear answer)
  | processes {worked : Shift σ υ} {number : String} (moves : Moves node shift worked)
      (history : worked.history <:+ after.history)
      (candidate : shift.watcher.candidate shift.cache = .ok (some number))
      (marked : worked.cache.markProcessed number = .ok after.cache)
      (current : after.watcher.current = some number)
      (latest : after.watcher.latest = worked.watcher.latest)

theorem effect_observeHead (node : Node σ υ) (shift : Shift σ υ) :
    Effect node shift (shift.observeHead node).2 := by
  obtain ⟨listened, records, answer, hmoves, hhistory, htold⟩ := observeHead_told node shift
  rw [htold]
  refine .hears hmoves (List.suffix_cons _ _) ?_ rfl rfl
  have hheard : Event.answered listened.time .head answer ∈ listened.history :=
    hhistory ▸ List.mem_cons_self
  exact List.mem_filterMap.mpr ⟨_, List.mem_cons_of_mem _ hheard, rfl⟩

theorem effect_attempt (node : Node σ υ) (pace : Pace) (shift : Shift σ υ) :
    Effect node shift (shift.attempt node pace).2 := by
  obtain ⟨events, result, after, hending, -, hattempt⟩ := ending_attempt node pace shift
  rw [hattempt]
  cases hending with
  | undecided candidate => exact .waits .refl (List.suffix_cons _ _) rfl rfl rfl
  | idle candidate => exact .waits .refl (List.suffix_cons _ _) rfl rfl rfl
  | withheld candidate moves history unavailable =>
      exact .waits moves (List.suffix_cons _ _) rfl rfl rfl
  | setback candidate moves history first =>
      exact .waits moves (List.suffix_cons _ _) rfl rfl rfl
  | @processed number _ worked block cache candidate moves history first stored taken marked =>
      exact .processes moves (List.suffix_cons _ _) candidate marked rfl rfl

/-- Step lemma: every stride has one of these effects. -/
theorem Stride.effect {node : Node σ υ} {pace : Pace} {shift after : Shift σ υ}
    (stride : Stride node pace shift after) : Effect node shift after := by
  cases stride with
  | move move => exact .waits (.single move) List.suffix_rfl rfl rfl rfl
  | observe => exact effect_observeHead node shift
  | attempt => exact effect_attempt node pace shift
  | settle =>
      rw [settle_eq]
      exact .waits .refl ⟨_, rfl⟩ rfl rfl rfl
  | write records =>
      rw [write_eq]
      exact .waits .refl ⟨_, rfl⟩ rfl rfl rfl
  | loop running stopped loops handle => exact .waits .refl List.suffix_rfl rfl rfl rfl

/-! ## Strides keep it up -/

theorem Move.cacheSound {node : Node σ υ} {shift after : Shift σ υ} (move : Move node shift after)
    (sound : shift.cache.Sound) : after.cache.Sound := by
  cases move with
  | @keep appointment rest next =>
      show (shift.act node appointment.action).2.cache.Sound
      rcases act_cache node shift appointment.action with ⟨call, -, h⟩ | ⟨subscriptions, -, h⟩
      · rw [h]
        exact sound.perform call
      · rw [h]
        exact sound
  | @learn ask answer state told => exact sound.learn ask answer
  | pass later => exact sound
  | ask question => exact sound
  | start place hash => exact sound
  | refuse told => exact sound
  | crash crashes => exact sound

theorem Moves.cacheSound {node : Node σ υ} {start now : Shift σ υ} (moves : Moves node start now)
    (sound : start.cache.Sound) : now.cache.Sound := by
  induction moves with
  | refl => exact sound
  | tail _ move ih => exact move.cacheSound ih

theorem Moves.watcherSound {node : Node σ υ} {start now : Shift σ υ}
    (moves : Moves node start now) (sound : start.watcher.Sound start.cache) :
    now.watcher.Sound now.cache := by
  obtain ⟨_, _, account⟩ := Account.of_moves moves
  exact (sound.grow account.grows).congr account.leftAlone.current account.leftAlone.latest

theorem Effect.cacheSound {node : Node σ υ} {shift after : Shift σ υ}
    (effect : Effect node shift after) (sound : shift.cache.Sound) : after.cache.Sound := by
  cases effect with
  | waits moves history cache current latest => exact cache ▸ moves.cacheSound sound
  | hears moves history heard cache watcher => exact cache ▸ moves.cacheSound sound
  | processes moves history candidate marked current latest =>
      exact (moves.cacheSound sound).markProcessed marked

theorem Effect.watcherSound {node : Node σ υ} {shift after : Shift σ υ}
    (effect : Effect node shift after) (sound : shift.watcher.Sound shift.cache) :
    after.watcher.Sound after.cache := by
  cases effect with
  | waits moves history cache current latest =>
      rw [cache]
      exact (moves.watcherSound sound).congr current latest
  | @hears _ answer moves history heard cache watcher =>
      rw [cache, watcher]
      exact (moves.watcherSound sound).hear answer
  | processes moves history candidate marked current latest =>
      obtain ⟨_, _, account⟩ := Account.of_moves moves
      exact ((moves.watcherSound sound).process candidate account.leftAlone.latest marked).congr
        current latest

theorem Strides.cacheSound {node : Node σ υ} {pace : Pace} {start last : Shift σ υ}
    (strides : Strides node pace start last) (sound : start.cache.Sound) : last.cache.Sound := by
  induction strides with
  | refl => exact sound
  | tail _ stride ih => exact stride.effect.cacheSound ih

theorem Strides.watcherSound {node : Node σ υ} {pace : Pace} {start last : Shift σ υ}
    (strides : Strides node pace start last) (sound : start.watcher.Sound start.cache) :
    last.watcher.Sound last.cache := by
  induction strides with
  | refl => exact sound
  | tail _ stride ih => exact stride.effect.watcherSound ih

end Shift

end BlockWatch
