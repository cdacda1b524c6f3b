import BlockWatch.Shift.Resolution

/-!
# Batches, one transaction after the other

Normative source: SPEC_FULL.md, section 4.3, step 6 of `processNextBlock`, and section 10.9:

    partitioned into fixed-size batches (default 25) separated by a fixed delay (default 2s)
    between batch launches
    Batch delay is applied between batch launches, not before the first batch.

The batches of a list are its first elements, as many as fit into one, and then the batches of what
is left (`batches_cons`), and `Resolution.startBatches` is the loop over them.  Most of what is
proved of a resolution is proved for one transaction after the other, so here the loop is brought
into this form: `Resolution.startFrom` goes through the transactions by their places in the block,
and sleeps before a place that is a multiple of the batch size, the first one apart.  The two are
equal for every block, also where the last batch is not full and where the delay is zero
(`startBatches_eq`).
-/

set_option autoImplicit false

namespace BlockWatch.Resolution

variable {σ υ : Type}

/-- A resolution when it comes to the transaction at a place, which may be the first of its
batch. -/
def pauseAt (node : Node σ υ) (pace : Pace) (resolution : Resolution σ υ) (place : Nat) :
    Resolution σ υ :=
  if 0 < place ∧ place % pace.batchSize = 0 ∧ pace.batchDelay ≠ 0 then
    resolution.sleep node pace.batchDelay
  else resolution

/-- Start the transactions from a place on. -/
def startFrom (node : Node σ υ) (pace : Pace) (place : Nat) (resolution : Resolution σ υ) :
    List String → Resolution σ υ
  | [] => resolution
  | hash :: rest =>
      startFrom node pace (place + 1) ((resolution.pauseAt node pace place).start node place hash)
        rest

/-! ## Batches of hashes -/

/-- The room is filled first, and then there is one batch after the other. -/
theorem split_eq (size : Nat) (hashes : List String) :
    ∀ room, split size room hashes = (hashes.take room, (split size 0 (hashes.drop room)).2) := by
  induction hashes with
  | nil => exact fun room => by cases room <;> rfl
  | cons hash rest ih =>
      intro room
      cases room with
      | zero => rfl
      | succ room =>
          rw [split, ih room]
          rfl

/-- The first batch is what fits into one, and the others are the batches of what is left. -/
theorem batches_cons (pace : Pace) (hash : String) (rest : List String) :
    batches pace (hash :: rest) =
      (hash :: rest).take pace.batchSize ::
        batches pace ((hash :: rest).drop pace.batchSize) := by
  obtain ⟨size, hsize⟩ := Nat.exists_eq_succ_of_ne_zero (Nat.ne_of_gt pace.batchSize_pos)
  simp only [batches, split, hsize, Nat.succ_sub_one, List.take_succ_cons, List.drop_succ_cons]
  rw [split_eq size.succ rest size]

/-! ## The loop over batches -/

theorem pauseAt_within (node : Node σ υ) (pace : Pace) (resolution : Resolution σ υ)
    {i place room : Nat} (next : place + (room + 1) = i * pace.batchSize)
    (fits : room + 1 < pace.batchSize) : resolution.pauseAt node pace place = resolution := by
  have hbetween : place % pace.batchSize ≠ 0 := by
    intro hmultiple
    obtain ⟨k, rfl⟩ := Nat.dvd_of_mod_eq_zero hmultiple
    rw [Nat.mul_comm pace.batchSize] at next
    have hbefore : k < i := Nat.lt_of_mul_lt_mul_right (a := pace.batchSize) (by omega)
    have hafter : (k + 1) * pace.batchSize ≤ i * pace.batchSize :=
      Nat.mul_le_mul_right _ hbefore
    rw [Nat.succ_mul] at hafter
    omega
  exact if_neg fun h => hbetween h.2.1

theorem pauseAt_first (node : Node σ υ) (pace : Pace) (resolution : Resolution σ υ) (i : Nat) :
    resolution.pauseAt node pace (i * pace.batchSize) =
      if 0 < i ∧ pace.batchDelay ≠ 0 then resolution.sleep node pace.batchDelay
      else resolution := by
  simp only [pauseAt, Nat.mul_pos_iff_of_pos_right pace.batchSize_pos, Nat.mul_mod_left, true_and]

/-- From any place on: the present batch is completed, and then the next ones are started. -/
theorem startFrom_eq (node : Node σ υ) (pace : Pace) (hashes : List String) :
    ∀ (i place room : Nat) (resolution : Resolution σ υ),
      place + room = i * pace.batchSize → room < pace.batchSize →
      startFrom node pace place resolution hashes =
        startBatches node pace i
          (startBatch node place resolution (split pace.batchSize room hashes).1)
          (split pace.batchSize room hashes).2 := by
  induction hashes with
  | nil =>
      intro i place room resolution _ _
      cases room <;> rfl
  | cons hash rest ih =>
      intro i place room resolution next fits
      cases room with
      | zero =>
          obtain rfl : place = i * pace.batchSize := next
          have hnext : i * pace.batchSize + 1 + (pace.batchSize - 1) =
              (i + 1) * pace.batchSize := by
            rw [Nat.succ_mul]
            omega
          rw [startFrom, pauseAt_first, ih (i + 1) _ (pace.batchSize - 1) _ hnext (by omega)]
          rfl
      | succ room =>
          rw [startFrom, pauseAt_within node pace resolution next fits,
            ih i (place + 1) room _ (by omega) (by omega)]
          rfl

/-- The loop over batches, as the loop over transactions. -/
theorem startBatches_eq (node : Node σ υ) (pace : Pace) (resolution : Resolution σ υ)
    (hashes : List String) :
    startBatches node pace 0 resolution (batches pace hashes) =
      startFrom node pace 0 resolution hashes := by
  rw [startFrom_eq node pace hashes 0 0 0 resolution (by simp) pace.batchSize_pos, split_eq]
  rfl

end BlockWatch.Resolution
