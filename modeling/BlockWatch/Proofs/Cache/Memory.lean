import BlockWatch.Proofs.Cache.History

/-!
# What a cache remembers

Normative source: SPEC_FULL.md, section 4.2, for all operations of the cache.

`Remembers calls cache` is the invariant: the cache holds what the calls leave behind
(`Proofs.Cache.History`).  It holds of the empty cache before any call, every call preserves it
(`Remembers.perform`), and so it holds after any calls (`remembers_performAll`).

`performAll_answers` is the result for every sequence of calls: each answer is the one that the
calls before it determine, whatever comes after, and a call that fails leaves the cache as it was.
-/

set_option autoImplicit false

namespace BlockWatch.Cache

variable {history : List Call} {cache : Cache}

/-! ## The cache after all calls -/

/-- A cache holds what calls leave behind. -/
structure Remembers (history : List Call) (cache : Cache) : Prop where
  blocks : ∀ number, cache.blocks.find? number = firstBlock? history number
  transactions : ∀ hash, cache.transactions.find? hash = firstTransaction? history hash
  nodup : cache.transactions.keys.Nodup
  processed : ∀ number, number ∈ cache.processed ↔ Marked history number
  subscriptions : Listed history cache.subscriptions

theorem remembers_empty : Remembers [] empty where
  blocks _ := rfl
  transactions _ := rfl
  nodup := List.nodup_nil
  processed number := by simp [empty, Marked]
  subscriptions := listed_nil

theorem Remembers.contains (remembers : Remembers history cache) (number : String) :
    cache.blocks.contains number = (firstBlock? history number).isSome := by
  rw [Table.contains, remembers.blocks]

theorem Remembers.listed (remembers : Remembers history cache) (call : Call) :
    Listed (history ++ [call]) (cache.perform call).2.subscriptions := by
  have listed := remembers.subscriptions
  cases call with
  | subscribe address => exact listed.subscribe address
  | unsubscribe address =>
      have hafter : (cache.perform (.unsubscribe address)).2.subscriptions =
          cache.subscriptions.erase address := by
        rw [perform_unsubscribe]
        split_ifs with hmem
        · rfl
        · exact (List.erase_of_not_mem hmem).symm
      exact hafter ▸ listed.unsubscribe address
  | markProcessed number =>
      have hsame : (cache.perform (.markProcessed number)).2.subscriptions =
          cache.subscriptions := by
        rw [perform_markProcessed]
        split_ifs <;> rfl
      exact hsame ▸ listed.other (by simp) (by simp)
  | _ => exact listed.other (by simp) (by simp)

/-- Step lemma: every call preserves `Remembers`. -/
theorem Remembers.perform (remembers : Remembers history cache) (call : Call) :
    Remembers (history ++ [call]) (cache.perform call).2 where
  blocks number := by
    rw [blocks_perform, firstBlock?_concat, ← remembers.blocks]
    cases call.addedBlock? with
    | none => exact Option.or_none.symm
    | some added =>
        refine (Table.find?_insertNew_eq_or _ _ _ _).trans (congrArg _ ?_)
        simp only [Option.toList_some, Table.lookup_cons, List.lookup_nil, eq_comm]
  transactions hash := by
    rw [transactions_perform, firstTransaction?_concat, ← remembers.transactions]
    cases call.added? with
    | none => exact Option.or_none.symm
    | some added =>
        refine (Table.find?_insertNew_eq_or _ _ _ _).trans (congrArg _ ?_)
        by_cases hhash : added.hash = hash <;> simp [hhash]
  nodup := by
    rw [transactions_perform]
    cases call.added? with
    | none => exact remembers.nodup
    | some added => exact Table.nodup_keys_alter remembers.nodup _ _
  processed number := by
    rw [mem_processed_perform, marked_concat, remembers.processed, remembers.contains]
  subscriptions := remembers.listed call

theorem performAll_append (early late : List Call) :
    ∀ cache : Cache, cache.performAll (early ++ late) =
      ((cache.performAll early).1 ++ ((cache.performAll early).2.performAll late).1,
        ((cache.performAll early).2.performAll late).2) := by
  induction early with
  | nil => exact fun _ => rfl
  | cons call rest ih =>
      intro cache
      simp only [List.cons_append, performAll, ih]

theorem length_performAll (calls : List Call) :
    ∀ cache : Cache, (cache.performAll calls).1.length = calls.length := by
  induction calls with
  | nil => exact fun _ => rfl
  | cons call rest ih => exact fun cache => congrArg (· + 1) (ih _)

/-- Run lemma: after any calls an initially empty cache remembers them. -/
theorem remembers_performAll (history : List Call) :
    Remembers history (empty.performAll history).2 := by
  induction history using List.reverseRecOn with
  | nil => exact remembers_empty
  | append_singleton history call ih =>
      rw [performAll_append]
      exact ih.perform call

/-! ## Answers -/

theorem Remembers.touching (remembers : Remembers history cache) (address : String) :
    Touching history address (cache.transactionsOf address) := by
  -- A transaction is stored under its own hash, so that hashes come as seldom twice as keys.
  have hhash : ∀ entry ∈ cache.transactions.entries, entry.2.hash = entry.1 := fun entry hentry =>
    hash_of_firstTransaction? ((remembers.transactions entry.1).symm.trans
      ((Table.mem_entries_iff remembers.nodup).mp hentry))
  constructor
  · have hkeys : cache.transactions.values.map (·.hash) = cache.transactions.keys := by
      rw [Table.values, Table.keys, List.map_map]
      exact List.map_congr_left hhash
    exact (hkeys ▸ remembers.nodup).sublist (List.filter_sublist.map _)
  · intro transaction
    have hstored : transaction ∈ cache.transactions.values ↔
        firstTransaction? history transaction.hash = some transaction := by
      rw [← remembers.transactions, ← Table.mem_entries_iff remembers.nodup, Table.values,
        List.mem_map]
      constructor
      · rintro ⟨entry, hentry, rfl⟩
        exact (hhash entry hentry) ▸ hentry
      · exact fun hentry => ⟨_, hentry, rfl⟩
    rw [transactionsOf, List.mem_filter, hstored]
    simp [Transaction.touches]

/-- A cache that remembers the calls before it gives the answer that they determine. -/
theorem Remembers.answers (remembers : Remembers history cache) (call : Call) :
    Answers history call (cache.consult call).1 := by
  cases call with
  | addBlock number block => exact .addBlock number block
  | addTransaction transaction => exact .addTransaction transaction
  | transactionsOf address => exact .transactionsOf (remembers.touching address)
  | subscribe address => exact .subscribe (remembers.listed (.subscribe address))
  | subscriptions => exact .subscriptions remembers.subscriptions
  | block number =>
      rw [consult, Cache.perform, Cache.block, remembers.blocks]
      cases hfirst : firstBlock? history number with
      | none => exact .noBlock hfirst
      | some block => exact .block hfirst
  | transaction hash =>
      rw [consult, Cache.perform, Cache.transaction, remembers.transactions]
      cases hfirst : firstTransaction? history hash with
      | none => exact .noTransaction hfirst
      | some transaction => exact .transaction hfirst
  | markProcessed number =>
      rw [consult, perform_markProcessed, remembers.contains]
      cases hfirst : firstBlock? history number with
      | none => exact .noMark hfirst
      | some block => exact .mark hfirst
  | isProcessed number =>
      rw [consult, Cache.perform, Cache.isProcessed, remembers.contains]
      cases hfirst : firstBlock? history number with
      | none => exact .notProcessed hfirst
      | some block =>
          exact .isProcessed hfirst (List.contains_iff_mem.trans (remembers.processed number))
  | unsubscribe address =>
      have hlisted := remembers.listed (.unsubscribe address)
      rw [perform_unsubscribe] at hlisted
      rw [consult, perform_unsubscribe]
      by_cases hmem : address ∈ cache.subscriptions
      · rw [if_pos hmem] at hlisted ⊢
        exact .unsubscribe ((remembers.subscriptions.mem_iff address).mp hmem) hlisted
      · rw [if_neg hmem]
        exact .noUnsubscribe (mt (remembers.subscriptions.mem_iff address).mpr hmem)

theorem consult_of_error {cache : Cache} {call : Call} {failure : Failure}
    (h : (cache.consult call).1 = .error failure) : (cache.consult call).2 = cache := by
  cases call with
  | markProcessed number =>
      rw [consult, perform_markProcessed] at h ⊢
      split_ifs at h ⊢
      all_goals rfl
  | unsubscribe address =>
      rw [consult, perform_unsubscribe] at h ⊢
      split_ifs at h ⊢
      · cases h
      · rfl
  | addBlock number block => cases h
  | addTransaction transaction => cases h
  | subscribe address => cases h
  | _ => rfl

/-- For every sequence of calls on an empty cache: each answer is the one determined by the calls
before it, whatever comes after, and a call that fails leaves the cache as it was. -/
theorem performAll_answers (early : List Call) (call : Call) (late : List Call) :
    ∃ answer, (empty.performAll (early ++ call :: late)).1[early.length]? = some answer ∧
      Answers early call answer ∧
      ∀ failure, answer = .error failure →
        (empty.performAll (early ++ [call])).2 = (empty.performAll early).2 := by
  have remembers := remembers_performAll early
  refine ⟨((empty.performAll early).2.consult call).1, ?_, remembers.answers call, ?_⟩
  · rw [performAll_append, ← length_performAll early empty,
      List.getElem?_append_right (Nat.le_refl _), Nat.sub_self]
    rfl
  · intro failure hfailed
    rw [performAll_append]
    exact consult_of_error hfailed

end BlockWatch.Cache
