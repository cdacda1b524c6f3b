import BlockWatch.Proofs.Quantity
import BlockWatch.Watcher

/-!
# The block to work on next

Normative source: SPEC_FULL.md, section 4.3, step 4 of `processNextBlock`:

    Candidate next number defaults to `currentBlock` itself; if the Cache reports that block as
    already processed, advance the candidate to `currentBlock_int + offset` (encoded back to hex)

`Watcher.base` is the block that the choice starts from, and the offset.  `candidate_eq_some`
inverts `Watcher.candidate`: a chosen block is not beyond the head, and it is the base or its
successor.  A new watcher chooses a block with the number of the head (`candidate_of_new`), and a
watcher whose current block is processed the one with the next number (`candidate_of_processed`).
-/

set_option autoImplicit false

namespace BlockWatch

namespace Watcher

/-- The block that the choice starts from, and how many blocks after it the next one is: a new
watcher stays at the head. -/
def base (watcher : Watcher) (head : String) : String × Nat :=
  match watcher.current with
  | some current => (current, 1)
  | none => (head, 0)

/-- If the text of the sum of `n` and `step` is a quantity, it stands for that sum. -/
theorem decode_successor {text next : String} {n m : Int} {step : Nat}
    (hread : Quantity.decode text = .ok n) (hnext : successor text n step = .ok next)
    (h : Quantity.decode next = .ok m) : m = n + step := by
  unfold successor at hnext
  split at hnext
  · rename_i sum hsum
    cases hnext
    exact Quantity.decode_of_add? hread hsum h
  · cases hnext

/-- A chosen block is not beyond the head.  It follows the base if that is processed, and is the
base otherwise. -/
theorem candidate_eq_some {watcher : Watcher} {cache : Cache} {number : String}
    (h : watcher.candidate cache = .ok (some number)) :
    ∃ head n m bound, watcher.latest = some head ∧
      Quantity.decode (watcher.base head).1 = .ok n ∧ Quantity.decode number = .ok m ∧
      Quantity.decode head = .ok bound ∧ m ≤ bound ∧
      ((cache.isProcessed (watcher.base head).1 = .ok true ∧ m = n + (watcher.base head).2) ∨
        (cache.isProcessed (watcher.base head).1 ≠ .ok true ∧
          number = (watcher.base head).1)) := by
  unfold candidate at h
  cases hlatest : watcher.latest with
  | none =>
      simp only [hlatest] at h
      cases h
  | some head =>
      have hbounded : ∀ next : String, (do
          let number ← Quantity.decode next
          let bound ← Quantity.decode head
          if bound < number then pure none else pure (some next)) = Except.ok (some number) →
          ∃ m bound, next = number ∧ Quantity.decode number = .ok m ∧
            Quantity.decode head = .ok bound ∧ m ≤ bound := by
        intro next hnext
        obtain ⟨m, hm, hnext⟩ := bind_eq_ok_iff.mp hnext
        obtain ⟨bound, hbound, hnext⟩ := bind_eq_ok_iff.mp hnext
        split at hnext
        · cases hnext
        · rename_i hle
          cases hnext
          exact ⟨m, bound, rfl, hm, hbound, Int.not_lt.mp hle⟩
      simp only [hlatest] at h
      split at h
      · cases h
      · obtain ⟨n, hn, h⟩ := bind_eq_ok_iff.mp h
        split at h
        · rename_i hprocessed
          obtain ⟨next, hnext, h⟩ := bind_eq_ok_iff.mp h
          obtain ⟨m, bound, rfl, hm, hbound, hle⟩ := hbounded next h
          exact ⟨head, n, m, bound, rfl, hn, hm, hbound, hle,
            Or.inl ⟨hprocessed, decode_successor hn hnext hm⟩⟩
        · rename_i hother
          obtain ⟨next, hnext, h⟩ := bind_eq_ok_iff.mp h
          obtain ⟨m, bound, rfl, hm, hbound, hle⟩ := hbounded next h
          cases hnext
          exact ⟨head, n, m, bound, rfl, hn, hm, hbound, hle, Or.inr ⟨hother, rfl⟩⟩

theorem candidate_of_new {watcher : Watcher} {cache : Cache} {number : String}
    (hnew : watcher.current = none) (h : watcher.candidate cache = .ok (some number)) :
    ∃ head bound, watcher.latest = some head ∧ Quantity.decode head = .ok bound ∧
      Quantity.decode number = .ok bound := by
  obtain ⟨head, n, m, bound, hlatest, hn, hm, hbound, -, hcases⟩ := candidate_eq_some h
  have hbase : watcher.base head = (head, 0) := by rw [base, hnew]
  rw [hbase] at hn hcases
  have hsame : n = bound := Except.ok.inj (hn.symm.trans hbound)
  rcases hcases with ⟨-, hstep⟩ | ⟨-, hself⟩
  · refine ⟨head, bound, hlatest, hbound, ?_⟩
    rw [hm, hstep, hsame, Int.natCast_zero, Int.add_zero]
  · exact ⟨head, bound, hlatest, hbound, by rw [hself]; exact hbound⟩

theorem candidate_of_processed {watcher : Watcher} {cache : Cache} {current number : String}
    {n : Int} (hcurrent : watcher.current = some current)
    (hdecode : Quantity.decode current = .ok n) (hprocessed : cache.isProcessed current = .ok true)
    (h : watcher.candidate cache = .ok (some number)) :
    ∃ head bound, watcher.latest = some head ∧ Quantity.decode head = .ok bound ∧
      Quantity.decode number = .ok (n + 1) ∧ n + 1 ≤ bound := by
  obtain ⟨head, k, m, bound, hlatest, hk, hm, hbound, hle, hcases⟩ := candidate_eq_some h
  have hbase : watcher.base head = (current, 1) := by rw [base, hcurrent]
  rw [hbase] at hk hcases
  have hsame : k = n := Except.ok.inj (hk.symm.trans hdecode)
  rcases hcases with ⟨-, hstep⟩ | ⟨hnot, -⟩
  · have hnext : m = n + 1 := by rw [hstep, hsame, Int.natCast_one]
    exact ⟨head, bound, hlatest, hbound, hnext ▸ hm, hnext ▸ hle⟩
  · exact absurd hprocessed hnot

end Watcher

end BlockWatch
