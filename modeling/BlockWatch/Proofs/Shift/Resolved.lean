import BlockWatch.Node.Script
import BlockWatch.Proofs.Shift.Frame
import BlockWatch.Shift.Loop

/-!
# Which transactions a processed block has

Normative source: SPEC_FULL.md, section 4.3, `notifyForBlock`:

    a miss here indicates a cache-consistency bug, since all hashes were just resolved in step 6

Every transaction of a processed block was resolved, which is to say that the cache had it or that
the node answered when asked for it.  An answer is stored under the hash that it carries, not under
the one that was asked for.  So a transaction can still be missing, exactly when the node answered
with another one in its place and nothing else put it into the cache: `processed_transactions_iff`
for every attempt that processes a block, with a run in `processed_without_transaction`.
-/

set_option autoImplicit false

namespace BlockWatch.Shift

variable {σ υ : Type}

/-! ## Where a transaction comes from -/

/-- There is a reason for a hash to be in the cache: it was there before, the node answered some
question with a transaction that carries it, or an appointment put one in. -/
def Covered (before : Cache) (events : List Event) (meanwhile : List (Appointment υ))
    (hash : String) : Prop :=
  (∃ transaction, before.transaction hash = .ok transaction) ∨
    (∃ time asked transaction,
      Event.answered time (.transaction asked) (.ok transaction) ∈ events ∧
        transaction.hash = hash) ∨
      ∃ transaction ∈ (meanwhile.map (·.action)).filterMap Action.added?, transaction.hash = hash

/-- The node was asked for a transaction and answered with one that carries another hash. -/
def Mislabelled (events : List Event) (hash : String) : Prop :=
  ∃ time transaction, Event.answered time (.transaction hash) (.ok transaction) ∈ events ∧
    transaction.hash ≠ hash

theorem Account.found_iff {start now : Shift σ υ} {events : List Event}
    {meanwhile : List (Appointment υ)} (account : Account start now events meanwhile)
    (hash : String) :
    (∃ transaction, now.cache.transaction hash = .ok transaction) ↔
      Covered start.cache events meanwhile hash := by
  have hlearned : (∃ transaction ∈ events.filterMap Event.learned?, transaction.hash = hash) ↔
      ∃ time asked transaction,
        Event.answered time (.transaction asked) (.ok transaction) ∈ events ∧
          transaction.hash = hash := by
    constructor
    · rintro ⟨transaction, hmem, hhash⟩
      obtain ⟨event, hevent, hview⟩ := List.mem_filterMap.mp hmem
      unfold Event.learned? at hview
      split at hview
      · cases hview
        exact ⟨_, _, _, hevent, hhash⟩
      · cases hview
    · rintro ⟨time, asked, transaction, hevent, hhash⟩
      exact ⟨transaction, List.mem_filterMap.mpr ⟨_, hevent, rfl⟩, hhash⟩
  rw [Cache.exists_transaction_iff, account.keys, hlearned, ← Cache.exists_transaction_iff]
  exact Iff.rfl

/-! ## Processed blocks -/

/-- For an attempt that processed a block: the block is in the cache, every hash that is found was
there or was answered with, and a missing transaction was mislabelled. -/
theorem Ending.resolved {node : Node σ υ} {shift after : Shift σ υ} {events : List Event}
    {number : String} (ending : Ending node shift events (.ok (some number)) after) :
    ∃ meanwhile block, after.history = events ++ shift.history ∧
      shift.agenda = meanwhile ++ after.agenda ∧
      after.cache.block number = .ok block ∧
      (∀ hash, (∃ transaction, after.cache.transaction hash = .ok transaction) ↔
        Covered shift.cache events meanwhile hash) ∧
      ∀ hash ∈ block.transactions,
        Covered shift.cache events meanwhile hash ∨ Mislabelled events hash := by
  cases ending with
  | @processed _ _ worked block cache candidate moves history first stored taken marked =>
      obtain ⟨meanwhile, haccount⟩ := Account.of_history moves history
      obtain ⟨processed, rfl, -⟩ := Cache.markProcessed_eq marked
      refine ⟨meanwhile, block, history, haccount.agenda, stored, haccount.found_iff, ?_⟩
      intro hash hhash
      rcases taken hash hhash with hkey | ⟨time, answer, hanswer⟩
      · exact Or.inl ((haccount.found_iff hash).mp (Cache.exists_transaction_iff.mpr hkey))
      · cases answer with
        | error failure =>
            exact absurd hanswer (Resolution.firstSetback_eq_none_iff.mp first time hash failure)
        | ok transaction =>
            by_cases hlabel : transaction.hash = hash
            · exact Or.inl (Or.inr (Or.inl ⟨time, hash, transaction, hanswer, hlabel⟩))
            · exact Or.inr ⟨time, transaction, hanswer, hlabel⟩

/-- A processed block is in the cache.  All its transactions are found, and none is dropped from
what subscribers are told, exactly when every transaction that the node mislabelled came into the
cache in another way. -/
theorem processed_transactions_iff {node : Node σ υ} {pace : Pace} {shift : Shift σ υ}
    {number : String} (h : (shift.attempt node pace).1 = .ok (some number)) :
    ∃ events meanwhile block,
      (shift.attempt node pace).2.history =
        .attempted shift.snapshot (shift.attempt node pace).2.snapshot (.ok (some number)) ::
          (events ++ shift.history) ∧
      shift.agenda = meanwhile ++ (shift.attempt node pace).2.agenda ∧
      (shift.attempt node pace).2.cache.block number = .ok block ∧
      ((∀ hash ∈ block.transactions, ∃ transaction,
          (shift.attempt node pace).2.cache.transaction hash = .ok transaction) ↔
        ∀ hash ∈ block.transactions,
          Mislabelled events hash → Covered shift.cache events meanwhile hash) ∧
      ((blockTransactions (shift.attempt node pace).2.cache block).length =
          block.transactions.length ↔
        ∀ hash ∈ block.transactions,
          Mislabelled events hash → Covered shift.cache events meanwhile hash) := by
  obtain ⟨events, hending⟩ := ending_advance node pace shift
  have hresult : (shift.advance node pace).1 = .ok (some number) := h
  rw [hresult] at hending
  obtain ⟨meanwhile, block, hhistory, hagenda, hblock, hfound, hall⟩ := hending.resolved
  have hcomplete : (∀ hash ∈ block.transactions, ∃ transaction,
      (shift.attempt node pace).2.cache.transaction hash = .ok transaction) ↔
      ∀ hash ∈ block.transactions, Mislabelled events hash →
        Covered shift.cache events meanwhile hash := by
    constructor
    · intro hfind hash hhash _
      exact (hfound hash).mp (hfind hash hhash)
    · intro hcovered hash hhash
      exact (hfound hash).mpr ((hall hash hhash).elim id (hcovered hash hhash))
  refine ⟨events, meanwhile, block, ?_, hagenda, hblock, hcomplete, ?_⟩
  · show Event.attempted _ _ (shift.advance node pace).1 :: (shift.advance node pace).2.history = _
    rw [hhistory, hresult]
    rfl
  · rw [← hcomplete, blockTransactions, List.filterMap_length_eq_length]
    apply forall₂_congr
    intro hash _
    exact Cache.exists_transaction_iff.symm

/-! ## A node that mislabels -/

/-- A new watcher after a look at the head of a node, which has one block with one transaction and
answers the question for that in the given way. -/
def onlooker (answer : Transaction) : Shift Script Script.Update :=
  let script : Script :=
    { head := some "0x5"
      blocks := ⟨[("0x5", ⟨"0xb", ["0x1"]⟩)]⟩
      transactions := ⟨[("0x1", answer)]⟩ }
  (observeHead Script.node { node := script, cache := .empty, watcher := {} }).2

/-- The pace of a watcher that resolves one transaction after the other. -/
def single : Pace := ⟨1, 1, 0, Nat.one_pos, Nat.one_pos⟩

theorem processed_transactions_iff_labelled :
    ((onlooker ⟨"0x1", "0xa", none, []⟩).attempt Script.node single).1 = .ok (some "0x5") ∧
      ∃ events meanwhile block,
        ((onlooker ⟨"0x1", "0xa", none, []⟩).attempt Script.node single).2.cache.block "0x5" =
          .ok block ∧
        ((∀ hash ∈ block.transactions, ∃ transaction,
            ((onlooker ⟨"0x1", "0xa", none, []⟩).attempt Script.node
              single).2.cache.transaction hash = .ok transaction) ↔
          ∀ hash ∈ block.transactions, Mislabelled events hash →
            Covered (onlooker ⟨"0x1", "0xa", none, []⟩).cache events
              (meanwhile : List (Appointment Script.Update)) hash) := by
  have hprocessed :
      ((onlooker ⟨"0x1", "0xa", none, []⟩).attempt Script.node single).1 = .ok (some "0x5") := rfl
  obtain ⟨events, meanwhile, block, -, -, hblock, hcomplete, -⟩ :=
    processed_transactions_iff hprocessed
  exact ⟨hprocessed, events, meanwhile, block, hblock, hcomplete⟩

/-- A block is processed although the cache does not have its transaction, because the node
answered with another one. -/
theorem processed_without_transaction :
    ((onlooker ⟨"0x2", "0xa", none, []⟩).attempt Script.node single).1 = .ok (some "0x5") ∧
      ((onlooker ⟨"0x2", "0xa", none, []⟩).attempt Script.node single).2.cache.block "0x5" =
        .ok ⟨"0xb", ["0x1"]⟩ ∧
      ((onlooker ⟨"0x2", "0xa", none, []⟩).attempt Script.node single).2.cache.isProcessed "0x5" =
        .ok true ∧
      ((onlooker ⟨"0x2", "0xa", none, []⟩).attempt Script.node single).2.cache.transaction "0x1" =
        .error (.transactionNotFound "0x1") :=
  ⟨rfl, rfl, rfl, rfl⟩

end BlockWatch.Shift
