import BlockWatch.Proofs.Counter

/-!
# Watchers that cannot name their next block

Normative source: SPEC_FULL.md, section 10.7:

    `check_new_block` validates the reported head with `str_to_hex` before recording it; a malformed
    head is an error and leaves state unchanged.

Everything that a watcher remembers can be read, but the number after it may have no spelling: a
negative number is written as its two's complement, which reads as too large.  A watcher that has to
go on to such a number is stranded (`Watcher.Stranded`), and its choice fails
(`Stranded.candidate`).  A sound watcher that is not stranded reads everything it works with
(`Sound.candidate`), and a watcher that remembers no negative number is not stranded.
-/

set_option autoImplicit false

namespace BlockWatch.Watcher

/-- A watcher has to go on to a negative number. -/
inductive Stranded (watcher : Watcher) (cache : Cache) (n : Int) : Prop
  /-- the number follows that of the current block, which is not the newest head -/
  | after {current head : String} (remembered : watcher.current = some current)
      (latest : watcher.latest = some head) (moved : current ≠ head)
      (decoded : Quantity.decode current = .ok (n - 1)) (negative : n < 0)
  /-- the number is that of the head, at which a new watcher starts although the cache has it as
  processed -/
  | anew {head : String} (new : watcher.current = none) (latest : watcher.latest = some head)
      (decoded : Quantity.decode head = .ok n) (processed : cache.isProcessed head = .ok true)
      (negative : n < 0)

theorem Natural.not_stranded {watcher : Watcher} (natural : watcher.Natural) (cache : Cache)
    (n : Int) : ¬ watcher.Stranded cache n := by
  intro stranded
  cases stranded with
  | @after current _ remembered latest moved decoded negative =>
      have hnonneg := natural.current current _ remembered decoded
      omega
  | @anew head new latest decoded processed negative =>
      have hnonneg := natural.latest head _ latest decoded
      omega

/-! ## The choice of a watcher that goes on -/

/-- The successor of a number that can be read is written down, unless there is none. -/
theorem successor_eq (text : String) (n : Int) (step : Nat) :
    successor text n step =
      if n + step ≤ Quantity.maxValue then .ok (Quantity.encode (n + step))
      else .error (.consistency ("block number overflow after " ++ text)) := by
  unfold successor Quantity.add?
  by_cases h : n + step ≤ Quantity.maxValue
  · rw [if_pos h, if_pos h]
  · rw [if_neg h, if_neg h]

section Base

variable {watcher : Watcher} {cache : Cache} {head : String} {n bound : Int}
  (latest : watcher.latest = some head) (moved : watcher.current ≠ some head)

include latest moved

theorem candidate_of_moved :
    watcher.candidate cache = (do
      let n ← Quantity.decode (watcher.base head).1
      let next ← match cache.isProcessed (watcher.base head).1 with
        | .ok true => successor (watcher.base head).1 n (watcher.base head).2
        | _ => .ok (watcher.base head).1
      let number ← Quantity.decode next
      let bound ← Quantity.decode head
      if bound < number then pure none else pure (some next)) := by
  simp only [candidate, latest, if_neg moved]
  rfl

variable (decoded : Quantity.decode (watcher.base head).1 = .ok n)
  (bounded : Quantity.decode head = .ok bound)

include decoded bounded

theorem candidate_of_processed_base
    (processed : cache.isProcessed (watcher.base head).1 = .ok true) :
    watcher.candidate cache = (do
      let next ← successor (watcher.base head).1 n (watcher.base head).2
      let number ← Quantity.decode next
      if bound < number then pure none else pure (some next)) := by
  rw [candidate_of_moved latest moved, decoded, processed, bounded]
  rfl

theorem candidate_of_unprocessed_base
    (unprocessed : cache.isProcessed (watcher.base head).1 ≠ .ok true) :
    watcher.candidate cache =
      if bound < n then .ok none else .ok (some (watcher.base head).1) := by
  rw [candidate_of_moved latest moved, decoded, bounded]
  split
  · rename_i hprocessed
    exact absurd hprocessed unprocessed
  · show (do
      let number ← Quantity.decode (watcher.base head).1
      if bound < number then pure none else pure (some (watcher.base head).1)) = _
    rw [decoded]
    rfl

end Base

/-! ## Sound watchers -/

variable {watcher : Watcher} {cache : Cache}

theorem Sound.decode_base (sound : watcher.Sound cache) {head : String}
    (latest : watcher.latest = some head) : ∃ n, Quantity.decode (watcher.base head).1 = .ok n := by
  cases hcurrent : watcher.current with
  | none =>
      obtain ⟨n, hn⟩ := sound.latest head latest
      exact ⟨n, by simpa only [base, hcurrent] using hn⟩
  | some current =>
      obtain ⟨-, ⟨n, hn⟩, -⟩ := sound.current current hcurrent
      exact ⟨n, by simpa only [base, hcurrent] using hn⟩

/-- A sound watcher is stranded exactly if it goes on from its base to a negative number. -/
theorem Sound.stranded_iff (sound : watcher.Sound cache) {n : Int} :
    watcher.Stranded cache n ↔ ∃ head m, watcher.latest = some head ∧
      watcher.current ≠ some head ∧ Quantity.decode (watcher.base head).1 = .ok m ∧
      cache.isProcessed (watcher.base head).1 = .ok true ∧ m + (watcher.base head).2 = n ∧
      n < 0 := by
  constructor
  · intro stranded
    cases stranded with
    | @after current head remembered latest moved decoded negative =>
        have hbase : watcher.base head = (current, 1) := by rw [base, remembered]
        refine ⟨head, n - 1, latest, ?_, ?_, ?_, ?_, negative⟩
        · rw [remembered]
          exact fun h => moved (Option.some.inj h)
        · rw [hbase]
          exact decoded
        · rw [hbase]
          exact (sound.current current remembered).2.2
        · rw [hbase]
          exact Int.sub_add_cancel n 1
    | @anew head new latest decoded processed negative =>
        have hbase : watcher.base head = (head, 0) := by rw [base, new]
        rw [← Int.add_zero n] at decoded
        refine ⟨head, n, latest, by simp [new], ?_, ?_, ?_, negative⟩
        · rw [hbase]
          simpa using decoded
        · rw [hbase]
          exact processed
        · rw [hbase]
          exact Int.add_zero n
  · rintro ⟨head, m, hlatest, hmoved, hm, hprocessed, rfl, hneg⟩
    cases hcurrent : watcher.current with
    | none =>
        have hbase : watcher.base head = (head, 0) := by rw [base, hcurrent]
        rw [hbase] at hm hprocessed hneg ⊢
        exact .anew hcurrent hlatest (by simpa using hm) hprocessed hneg
    | some current =>
        have hbase : watcher.base head = (current, 1) := by rw [base, hcurrent]
        rw [hbase] at hm hneg ⊢
        refine .after hcurrent hlatest ?_ (by simpa using hm) hneg
        rintro rfl
        exact hmoved hcurrent

/-- The candidate of a stranded watcher cannot be read. -/
theorem Stranded.candidate {n : Int} (stranded : watcher.Stranded cache n)
    (sound : watcher.Sound cache) :
    watcher.candidate cache = .error (.invalidHex (Quantity.encode n) .tooLarge) := by
  obtain ⟨head, m, hlatest, hmoved, hm, hprocessed, hsum, hneg⟩ := sound.stranded_iff.mp stranded
  obtain ⟨bound, hbound⟩ := sound.latest head hlatest
  obtain ⟨hmin, -⟩ := Quantity.inRange_of_decode hm
  have hmax : n ≤ Quantity.maxValue := by
    rw [Quantity.maxValue]
    omega
  rw [candidate_of_processed_base hlatest hmoved hm hbound hprocessed, successor_eq, hsum,
    if_pos hmax]
  show (do
    let number ← Quantity.decode (Quantity.encode n)
    if bound < number then pure none else pure (some (Quantity.encode n))) = _
  rw [Quantity.decode_encode_of_neg (by omega) hneg]
  rfl

/-- A sound watcher that is not stranded reads everything it works with; its choice fails only if no
number follows the largest one. -/
theorem Sound.candidate (sound : watcher.Sound cache) :
    (∃ chosen, watcher.candidate cache = .ok chosen) ∨
      (∃ text, watcher.candidate cache = .error (.consistency text)) ∨
      ∃ n, watcher.Stranded cache n := by
  cases hlatest : watcher.latest with
  | none => exact Or.inl ⟨none, by simp only [Watcher.candidate, hlatest]⟩
  | some head =>
      by_cases hmoved : watcher.current = some head
      · exact Or.inl ⟨none, by simp only [Watcher.candidate, hlatest, if_pos hmoved]⟩
      · obtain ⟨bound, hbound⟩ := sound.latest head hlatest
        obtain ⟨n, hn⟩ := sound.decode_base hlatest
        have hchosen : ∀ (number : Int) (text : String), ∃ chosen,
            (if bound < number then .ok none else .ok (some text) :
              Except Failure (Option String)) = .ok chosen := by
          intro number text
          by_cases hbeyond : bound < number
          · exact ⟨none, if_pos hbeyond⟩
          · exact ⟨some text, if_neg hbeyond⟩
        by_cases hprocessed : cache.isProcessed (watcher.base head).1 = .ok true
        · rw [candidate_of_processed_base hlatest hmoved hn hbound hprocessed, successor_eq]
          by_cases hmax : n + (watcher.base head).2 ≤ Quantity.maxValue
          · by_cases hneg : n + (watcher.base head).2 < 0
            · exact Or.inr (Or.inr ⟨_, sound.stranded_iff.mpr
                ⟨head, n, hlatest, hmoved, hn, hprocessed, rfl, hneg⟩⟩)
            · left
              rw [if_pos hmax]
              show ∃ chosen, (do
                let number ← Quantity.decode (Quantity.encode (n + (watcher.base head).2))
                if bound < number then pure none
                else pure (some (Quantity.encode (n + (watcher.base head).2)))) = .ok chosen
              rw [Quantity.decode_encode_of_nonneg (Int.not_lt.mp hneg) hmax]
              exact hchosen _ _
          · rw [if_neg hmax]
            exact Or.inr (Or.inl ⟨_, rfl⟩)
        · rw [candidate_of_unprocessed_base hlatest hmoved hn hbound hprocessed]
          exact Or.inl (hchosen n _)

end BlockWatch.Watcher
