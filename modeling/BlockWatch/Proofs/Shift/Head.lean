import BlockWatch.Proofs.Shift.Resolution
import BlockWatch.Shift.Loop

/-!
# How a look at the head goes

Normative source: SPEC_FULL.md, section 4.3, `checkNewBlock`:

    On success, overwrite `latestBlock` only if it actually changed (cheap idempotence guard, avoids
    redundant side effects).

A look at the head is one question.  What it comes to (`headResult`), and what the watcher remembers
of it (`Watcher.hear`), depend on the answer alone: a head that is a quantity is the newest one from
then on, and anything else leaves the watcher as it is.  `observeHead_told` is the spec lemma that
all others use.
-/

set_option autoImplicit false

namespace BlockWatch

variable {σ υ : Type}

/-- The answer to the question for the head, or the failure that there was instead. -/
def Event.heard? : Event → Option (Except Failure String)
  | .answered _ .head answer => some answer
  | _ => none

/-- What was heard of the head among events, in their order. -/
def heardHeads (events : List Event) : List (Except Failure String) :=
  events.filterMap Event.heard?

/-- What a look at the head comes to. -/
def headResult (answer : Except Failure String) : Except Failure Unit :=
  answer.bind fun head => (Quantity.decode head).map fun _ => ()

namespace Watcher

/-- The watcher after an answer to the question for the head. -/
def hear (watcher : Watcher) (answer : Except Failure String) : Watcher :=
  match answer with
  | .error _ => watcher
  | .ok head =>
      match Quantity.decode head with
      | .error _ => watcher
      | .ok _ => { watcher with latest := some head }

/-- Only a head that is a quantity is remembered, and nothing else changes. -/
theorem hear_eq (watcher : Watcher) (answer : Except Failure String) :
    watcher.hear answer = watcher ∨
      ∃ head n, answer = .ok head ∧ Quantity.decode head = .ok n ∧
        watcher.hear answer = { watcher with latest := some head } := by
  cases answer with
  | error failure => exact Or.inl rfl
  | ok head =>
      cases hdecode : Quantity.decode head with
      | error failure => exact Or.inl (by simp only [hear, hdecode])
      | ok n => exact Or.inr ⟨head, n, rfl, hdecode, by simp only [hear, hdecode]⟩

@[simp] theorem hear_current (watcher : Watcher) (answer : Except Failure String) :
    (watcher.hear answer).current = watcher.current := by
  rcases watcher.hear_eq answer with h | ⟨_, _, -, -, h⟩ <;> rw [h]

@[simp] theorem hear_subscriptions (watcher : Watcher) (answer : Except Failure String) :
    (watcher.hear answer).subscriptions = watcher.subscriptions := by
  rcases watcher.hear_eq answer with h | ⟨_, _, -, -, h⟩ <;> rw [h]

@[simp] theorem hear_outlet (watcher : Watcher) (answer : Except Failure String) :
    (watcher.hear answer).outlet = watcher.outlet := by
  rcases watcher.hear_eq answer with h | ⟨_, _, -, -, h⟩ <;> rw [h]

@[simp] theorem hear_tasks (watcher : Watcher) (answer : Except Failure String) :
    (watcher.hear answer).tasks = watcher.tasks := by
  rcases watcher.hear_eq answer with h | ⟨_, _, -, -, h⟩ <;> rw [h]

end Watcher

namespace Shift

/-- A look at the head is one question, and the watcher hears its answer. -/
theorem observeHead_told (node : Node σ υ) (shift : Shift σ υ) :
    ∃ (listened : Shift σ υ) (records : List Record) (answer : Except Failure String),
      Moves node shift listened ∧
        listened.history =
          Event.exchange shift.time listened.time .head answer records ++ shift.history ∧
        shift.observeHead node = (headResult answer,
          { listened with watcher := listened.watcher.hear answer }.observe
            (.observed (headResult answer))) := by
  obtain ⟨told, records, answer, hask, -, hhistory, hmoves⟩ := ask_told node shift .head
  refine ⟨told, records, answer, ?_, hhistory, ?_⟩
  · -- there is nothing in a head for the cache to learn
    rcases hmoves with ⟨_, -, hrefused⟩ | ⟨_, -, hlearned⟩
    · exact hrefused
    · exact hlearned
  · unfold observeHead lookAtHead
    rw [hask]
    cases answer with
    | error failure => rfl
    | ok head =>
        dsimp only [headResult, Watcher.hear, Except.bind]
        cases Quantity.decode head <;> rfl

end Shift

end BlockWatch
