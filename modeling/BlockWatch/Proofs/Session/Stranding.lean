import BlockWatch.Proofs.Session.Counting
import BlockWatch.Proofs.Session.Retry
import BlockWatch.Proofs.Shift.Failures

/-!
# Attempts that fail at a number

Normative source: SPEC_FULL.md, section 10.7:

    `check_new_block` validates the reported head with `str_to_hex` before recording it; a malformed
    head is an error and leaves state unchanged.

With that check no attempt should fail at the text of a number.  `unreadable_iff_stranded` says at
every moment of every run when one does.  No attempt fails at a missing prefix.  One fails at the
digits exactly if the watcher is stranded, that is if it has to go on to a negative number, whose
spelling reads as too large; and a watcher that has heard of no negative head is not stranded.
`successor_unreadable` is a run in which a watcher is.
-/

set_option autoImplicit false

namespace BlockWatch.Session

variable {σ υ : Type}

/-- At every moment of every run of watchers on one cache, whatever the node answers and whatever is
done meanwhile: no attempt fails at a quantity without its prefix; it fails at the digits of one
exactly when the watcher is stranded, and then at the number to which it has to go on; and a watcher
that has heard of no negative head is not stranded. -/
theorem unreadable_iff_stranded (settings : Settings) (node : Node σ υ) (state : σ) (watchers : Nat)
    (steps : List (Step υ)) (place : Nat) {shift : Shift σ υ}
    (hshift : ((new settings state watchers).play node steps).2.Amid node place shift)
    (pace : Pace) :
    (∀ text, (shift.attempt node pace).1 ≠ .error (.badFormat text)) ∧
      (∀ text fault, (shift.attempt node pace).1 = .error (.invalidHex text fault) ↔
        ∃ n, shift.watcher.Stranded shift.cache n ∧ text = Quantity.encode n ∧
          fault = .tooLarge) ∧
      (HeadsNatural (eventsAt place ((new settings state watchers).play node steps).1 ++
          shift.history.reverse) →
        ∀ n, ¬ shift.watcher.Stranded shift.cache n) := by
  have hcounting := counting_throughout settings node state watchers steps place hshift
  refine ⟨?_, ?_, fun heads => (hcounting.natural heads).not_stranded shift.cache⟩
  · intro text hfailed
    obtain ⟨n, -, hfailure⟩ := Shift.stranded_of_attempt hcounting.sound hfailed id
    cases hfailure
  · intro text fault
    constructor
    · intro hfailed
      obtain ⟨n, hstranded, hfailure⟩ := Shift.stranded_of_attempt hcounting.sound hfailed id
      cases hfailure
      exact ⟨n, hstranded, rfl, rfl⟩
    · rintro ⟨n, hstranded, rfl, rfl⟩
      exact Shift.attempt_of_stranded node pace hcounting.sound hstranded

/-- A node whose heads are below zero. -/
def belowZero : Script where
  head := some "0x-3"
  queue := [some "0x-5"]
  blocks := ⟨[("0x-5", ⟨"0xb", []⟩), ("0x-4", ⟨"0xc", []⟩)]⟩

/-- The watcher processes the first head, sees the second one, and attempts the block after the
first. -/
def downUnder : List (Step Script.Update) :=
  [.work 0 .observe [], .work 0 .attempt [], .work 0 .observe [], .work 0 .attempt []]

/-- When the second head has been seen, the watcher is stranded. -/
theorem unreadable_iff_stranded_belowZero :
    ∃ shift : Shift Script Script.Update,
      ((new {} belowZero 1).play Script.node (downUnder.take 3)).2.Amid Script.node 0 shift ∧
        shift.watcher.Stranded shift.cache (-4) ∧
        (shift.attempt Script.node ({} : Settings).pace).1 =
          .error (.invalidHex "0xfffffffffffffffc" .tooLarge) := by
  have hpresent : ((new {} belowZero 1).play Script.node (downUnder.take 3)).2.watchers[0]? =
      some { current := some "0x-5", latest := some "0x-3" } := by cbv
  have hamid : ((new {} belowZero 1).play Script.node (downUnder.take 3)).2.Amid Script.node 0 _ :=
    ⟨_, ([] : List (Appointment Script.Update)), hpresent, .refl⟩
  have hencode : Quantity.encode (-4) = "0xfffffffffffffffc" := by cbv
  have hstranded : Watcher.Stranded { current := some "0x-5", latest := some "0x-3" }
      ((new {} belowZero 1).play Script.node (downUnder.take 3)).2.cache (-4) :=
    .after rfl rfl (by decide) (by cbv) (by decide)
  exact ⟨_, hamid, hstranded, ((unreadable_iff_stranded {} Script.node belowZero 1
    (downUnder.take 3) 0 hamid ({} : Settings).pace).2.1 _ _).mpr
      ⟨-4, hstranded, hencode.symm, rfl⟩⟩

/-- Both heads are quantities and are remembered, and yet the watcher fails at the block after the
first one. -/
theorem successor_unreadable :
    (attempts (eventsAt 0 ((new {} belowZero 1).play Script.node downUnder).1)).map
        Attempt.course =
      [(.ok (some "0x-5"), .ok (some "0x-5")),
       (.error (.invalidHex "0xfffffffffffffffc" .tooLarge),
        .error (.invalidHex "0xfffffffffffffffc" .tooLarge))] := by
  cbv

end BlockWatch.Session
