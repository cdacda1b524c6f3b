import BlockWatch.Cache
import BlockWatch.Rpc.Ask
import Mathlib.Tactic.SplitIfs

/-!
# What a cache keeps

Normative source: SPEC_FULL.md, section 3:

    a key present in `processed` must also be present in `blocks`. Grows monotonically; never
    evicts.

`Cache.Grows` is that monotonicity: stored blocks and transactions stay as they are, and processed
blocks stay processed.  It is reflexive and transitive, and there is one lemma for each operation.
Most invariants of a watcher are monotone in the cache, which is why they survive the work of other
watchers.

The module also says what each operation adds.  A transaction comes under its own hash, and a mark
comes from marking alone.  `Cache.learn` is what an answer of a node adds, and the lemmas about
`Cache.perform` are by cases on the call.
-/

set_option autoImplicit false

namespace BlockWatch.Cache

/-! ## Growth -/

/-- What a cache has about blocks and transactions is still there, and the same. -/
structure Grows (before after : Cache) : Prop where
  blocks : ∀ number block, before.blocks.find? number = some block →
    after.blocks.find? number = some block
  transactions : ∀ hash transaction, before.transactions.find? hash = some transaction →
    after.transactions.find? hash = some transaction
  processed : ∀ number, number ∈ before.processed → number ∈ after.processed

theorem Grows.refl (cache : Cache) : Grows cache cache :=
  ⟨fun _ _ h => h, fun _ _ h => h, fun _ h => h⟩

theorem Grows.trans {before middle after : Cache} (first : Grows before middle)
    (last : Grows middle after) : Grows before after where
  blocks number block h := last.blocks number block (first.blocks number block h)
  transactions hash transaction h := last.transactions hash transaction
    (first.transactions hash transaction h)
  processed number h := last.processed number (first.processed number h)

theorem Grows.block {before after : Cache} (grows : Grows before after) {number : String}
    {block : Block} (h : before.block number = .ok block) : after.block number = .ok block := by
  unfold Cache.block at h ⊢
  split at h
  · rename_i found hfound
    rw [grows.blocks number found hfound]
    exact h
  · cases h

theorem Grows.containsBlock {before after : Cache} (grows : Grows before after) {number : String}
    (h : before.blocks.contains number = true) : after.blocks.contains number = true := by
  obtain ⟨block, hfound⟩ := Option.isSome_iff_exists.mp h
  exact Option.isSome_iff_exists.mpr ⟨block, grows.blocks number block hfound⟩

theorem Grows.contains {before after : Cache} (grows : Grows before after) {hash : String}
    (h : before.transactions.contains hash = true) : after.transactions.contains hash = true := by
  obtain ⟨transaction, hfound⟩ := Option.isSome_iff_exists.mp h
  exact Option.isSome_iff_exists.mpr ⟨transaction, grows.transactions hash transaction hfound⟩

theorem Grows.isProcessed {before after : Cache} (grows : Grows before after) {number : String}
    (h : before.isProcessed number = .ok true) : after.isProcessed number = .ok true := by
  unfold Cache.isProcessed at h ⊢
  split at h
  · rename_i hcontains
    have hmarked : number ∈ before.processed := by simpa using h
    rw [if_pos (grows.containsBlock hcontains)]
    simpa using grows.processed number hmarked
  · cases h

/-! ## Blocks -/

theorem grows_addBlock (cache : Cache) (number : String) (block : Block) :
    Grows cache (cache.addBlock number block) where
  blocks _ _ h := Table.find?_insertNew_of_find? h number block
  transactions _ _ h := h
  processed _ h := h

theorem contains_addBlock (cache : Cache) (number : String) (block : Block) :
    (cache.addBlock number block).blocks.contains number = true :=
  (Table.contains_insertNew cache.blocks number block number).mpr (Or.inl rfl)

theorem exists_block_of_contains {cache : Cache} {number : String}
    (h : cache.blocks.contains number = true) : ∃ block, cache.block number = .ok block := by
  obtain ⟨block, hfound⟩ := Option.isSome_iff_exists.mp h
  exact ⟨block, by simp [Cache.block, hfound]⟩

theorem contains_of_block {cache : Cache} {number : String} {block : Block}
    (h : cache.block number = .ok block) : cache.blocks.contains number = true := by
  unfold Cache.block at h
  split at h
  · rename_i found hfound
    exact Option.isSome_iff_exists.mpr ⟨found, hfound⟩
  · cases h

/-- Marking changes only the marks, and adds at most its own. -/
theorem markProcessed_eq {cache marked : Cache} {number : String}
    (h : cache.markProcessed number = .ok marked) :
    ∃ processed, marked = { cache with processed } ∧ number ∈ processed ∧
      (∀ n, n ∈ processed ↔ n ∈ cache.processed ∨ n = number) := by
  unfold markProcessed at h
  split at h
  · split at h
    · rename_i hmember
      have hmem : number ∈ cache.processed := by simpa using hmember
      cases h
      refine ⟨cache.processed, rfl, hmem, fun n => ⟨Or.inl, ?_⟩⟩
      rintro (h | rfl)
      · exact h
      · exact hmem
    · cases h
      exact ⟨cache.processed ++ [number], rfl, by simp, fun n => by simp⟩
  · cases h

theorem grows_markProcessed {cache marked : Cache} {number : String}
    (h : cache.markProcessed number = .ok marked) : Grows cache marked := by
  obtain ⟨processed, rfl, -, hiff⟩ := markProcessed_eq h
  exact ⟨fun _ _ h => h, fun _ _ h => h, fun n hn => (hiff n).mpr (Or.inl hn)⟩

theorem markProcessed_of_contains {cache : Cache} {number : String}
    (h : cache.blocks.contains number = true) :
    ∃ marked, cache.markProcessed number = .ok marked := by
  unfold markProcessed
  rw [if_pos h]
  split
  · exact ⟨_, rfl⟩
  · exact ⟨_, rfl⟩

theorem isProcessed_of_markProcessed {cache marked : Cache} {number : String}
    (h : cache.markProcessed number = .ok marked) : marked.isProcessed number = .ok true := by
  obtain ⟨processed, rfl, hmem, -⟩ := markProcessed_eq h
  unfold markProcessed at h
  split at h
  · rename_i hcontains
    unfold isProcessed
    rw [if_pos hcontains]
    simpa using hmem
  · cases h

/-! ## Transactions -/

theorem grows_addTransaction (cache : Cache) (transaction : Transaction) :
    Grows cache (cache.addTransaction transaction) where
  blocks _ _ h := h
  transactions _ _ h := Table.find?_insertNew_of_find? h transaction.hash transaction
  processed _ h := h

/-- A transaction adds its own hash to the keys and no other. -/
theorem contains_addTransaction (cache : Cache) (transaction : Transaction) (hash : String) :
    (cache.addTransaction transaction).transactions.contains hash = true ↔
      hash = transaction.hash ∨ cache.transactions.contains hash = true :=
  Table.contains_insertNew cache.transactions transaction.hash transaction hash

theorem exists_transaction_iff {cache : Cache} {hash : String} :
    (∃ transaction, cache.transaction hash = .ok transaction) ↔
      cache.transactions.contains hash = true := by
  unfold Cache.transaction Table.contains
  cases cache.transactions.find? hash <;> simp

/-! ## Answers of a node -/

/-- The cache after an answer: a block is stored under the number that was asked for, a
transaction under its own hash. -/
def learn (cache : Cache) : (ask : Ask) → ask.Answer → Cache
  | .head, _ => cache
  | .block number, block => cache.addBlock number block
  | .transaction _, transaction => cache.addTransaction transaction

theorem grows_learn (cache : Cache) (ask : Ask) (answer : ask.Answer) :
    Grows cache (cache.learn ask answer) := by
  cases ask with
  | head => exact Grows.refl cache
  | block number => exact grows_addBlock cache number answer
  | transaction hash => exact grows_addTransaction cache answer

@[simp] theorem learn_processed (cache : Cache) (ask : Ask) (answer : ask.Answer) :
    (cache.learn ask answer).processed = cache.processed := by
  cases ask <;> rfl

/-! ## Operations as values -/

/-- The block that an operation puts in, with the number. -/
def Call.addedBlock? : Call → Option (String × Block)
  | .addBlock number added => some (number, added)
  | _ => none

/-- The transaction that an operation puts in. -/
def Call.added? : Call → Option Transaction
  | .addTransaction added => some added
  | _ => none

/-- The number that an operation marks. -/
def Call.marked? : Call → Option String
  | .markProcessed marked => some marked
  | _ => none

/-- One of the two operations that can fail: it does where there is no block. -/
theorem perform_markProcessed (cache : Cache) (number : String) :
    cache.perform (.markProcessed number) =
      if cache.blocks.contains number then
        (.ok .done, if number ∈ cache.processed then cache
          else { cache with processed := cache.processed ++ [number] })
      else (.error (.blockNotFound number), cache) := by
  simp only [perform, change, markProcessed, List.contains_iff_mem]
  by_cases hblock : cache.blocks.contains number = true
  · by_cases hmarked : number ∈ cache.processed <;> simp [hblock, hmarked]
  · simp [hblock]

/-- The other operation that can fail: it does where the address is absent. -/
theorem perform_unsubscribe (cache : Cache) (address : String) :
    cache.perform (.unsubscribe address) =
      if address ∈ cache.subscriptions then
        (.ok .done, { cache with subscriptions := cache.subscriptions.erase address })
      else (.error (.addressNotFound address), cache) := by
  by_cases h : address ∈ cache.subscriptions <;>
    simp [perform, change, Cache.unsubscribe, Roster.remove?, h]

/-- Consulting the subscriptions leaves the cache as it is. -/
@[simp] theorem consult_cache (cache : Cache) (call : Call) :
    (cache.consult call).2 = (cache.perform call).2 := rfl

theorem blocks_perform (cache : Cache) (call : Call) :
    (cache.perform call).2.blocks =
      call.addedBlock?.elim cache.blocks fun added => cache.blocks.insertNew added.1 added.2 := by
  cases call with
  | markProcessed number =>
      rw [perform_markProcessed]
      split_ifs <;> rfl
  | unsubscribe address =>
      rw [perform_unsubscribe]
      split_ifs <;> rfl
  | _ => rfl

theorem transactions_perform (cache : Cache) (call : Call) :
    (cache.perform call).2.transactions =
      call.added?.elim cache.transactions fun added =>
        cache.transactions.insertNew added.hash added := by
  cases call with
  | markProcessed number =>
      rw [perform_markProcessed]
      split_ifs <;> rfl
  | unsubscribe address =>
      rw [perform_unsubscribe]
      split_ifs <;> rfl
  | _ => rfl

/-- A mark comes from marking a block that is there. -/
theorem mem_processed_perform (cache : Cache) (call : Call) (number : String) :
    number ∈ (cache.perform call).2.processed ↔ number ∈ cache.processed ∨
      call = .markProcessed number ∧ cache.blocks.contains number = true := by
  cases call with
  | markProcessed other =>
      rw [perform_markProcessed]
      by_cases hblock : cache.blocks.contains other = true
      · by_cases hmarked : other ∈ cache.processed
        · simp only [hblock, hmarked, if_true, Call.markProcessed.injEq]
          exact ⟨Or.inl, fun h => h.elim id fun h => h.1 ▸ hmarked⟩
        · simp only [hblock, hmarked, if_true, if_false, List.mem_append, List.mem_singleton,
            Call.markProcessed.injEq]
          exact or_congr_right ⟨fun h => ⟨h.symm, h ▸ hblock⟩, fun h => h.1.symm⟩
      · rw [if_neg hblock]
        refine ⟨Or.inl, fun h => h.elim id fun h => absurd h.2 ?_⟩
        exact Call.markProcessed.inj h.1 ▸ hblock
  | unsubscribe address =>
      rw [perform_unsubscribe]
      split_ifs <;> simp
  | _ => simp [perform, change, addBlock, addTransaction, Cache.subscribe]

theorem grows_perform (cache : Cache) (call : Call) : Grows cache (cache.perform call).2 where
  blocks number block h := by
    rw [blocks_perform]
    cases call.addedBlock? with
    | none => exact h
    | some added => exact Table.find?_insertNew_of_find? h _ _
  transactions hash transaction h := by
    rw [transactions_perform]
    cases call.added? with
    | none => exact h
    | some added => exact Table.find?_insertNew_of_find? h _ _
  processed number h := (mem_processed_perform cache call number).mpr (Or.inl h)

theorem contains_perform (cache : Cache) (call : Call) (hash : String) :
    (cache.perform call).2.transactions.contains hash = true ↔
      cache.transactions.contains hash = true ∨
        ∃ transaction, call.added? = some transaction ∧ transaction.hash = hash := by
  rw [transactions_perform]
  cases call.added? with
  | none => simp
  | some added =>
      refine (Table.contains_insertNew _ _ _ _).trans ?_
      simp only [Option.some.injEq, exists_eq_left']
      exact or_comm.trans (or_congr_right eq_comm)

/-- The only mark that an operation can add is its own. -/
theorem processed_perform {cache : Cache} {call : Call} {number : String}
    (h : number ∈ (cache.perform call).2.processed) :
    number ∈ cache.processed ∨ call.marked? = some number := by
  refine ((mem_processed_perform cache call number).mp h).imp id ?_
  rintro ⟨rfl, -⟩
  rfl

end BlockWatch.Cache
