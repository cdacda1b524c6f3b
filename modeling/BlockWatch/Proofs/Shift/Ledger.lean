import BlockWatch.Proofs.Shift.Inquiry
import BlockWatch.Proofs.Shift.Soundness
import Mathlib.Data.List.Basic

/-!
# Ledgers

Normative source: SPEC_FULL.md, section 9:

    inject as abstract capability interfaces at construction, so test doubles can substitute
    deterministic mock behavior

A node that always gives the same answer for the same key answers from a ledger, which has a block
or a transaction for some keys and nothing for the others.  As long as every answer is explained by
the ledger (`Ledger.Explains`), and every transaction carries the hash that it is asked for under, a
cache has nothing but what stands in the ledger (`Ledger.Covers`).  Then it makes no difference for
what comes of a block whether something is asked for or found in the cache: `Ledger.delivery` is
what its subscribers are told, or that the block cannot be processed.
-/

set_option autoImplicit false

namespace BlockWatch

variable {σ υ : Type}

/-! ## Entries -/

/-- What a node says about a key; nothing where it fails. -/
inductive Entry where
  | block (number : String) (answer : Option Block)
  | transaction (hash : String) (answer : Option Transaction)

/-- What the node says in an event. -/
def Event.entry? : Event → Option Entry
  | .answered _ (.block number) answer => some (.block number answer.toOption)
  | .answered _ (.transaction hash) answer => some (.transaction hash answer.toOption)
  | _ => none

/-- What there is to know about blocks and transactions; what is not in it cannot be had. -/
structure Ledger where
  block : String → Option Block
  transaction : String → Option Transaction

namespace Ledger

variable {ledger : Ledger}

/-- Every transaction carries the hash that it is asked for under. -/
def Labelled (ledger : Ledger) : Prop :=
  ∀ hash transaction, ledger.transaction hash = some transaction → transaction.hash = hash

/-- An entry stands in the ledger. -/
def Has (ledger : Ledger) : Entry → Prop
  | .block number answer => ledger.block number = answer
  | .transaction hash answer => ledger.transaction hash = answer

/-- Every answer among events stands in the ledger, and every failure is at a key that does not. -/
def Explains (ledger : Ledger) (events : List Event) : Prop :=
  ∀ entry ∈ events.filterMap Event.entry?, ledger.Has entry

theorem Explains.mono {early late : List Event} (explains : ledger.Explains late)
    (subset : early ⊆ late) : ledger.Explains early := by
  intro entry hentry
  obtain ⟨event, hevent, hview⟩ := List.mem_filterMap.mp hentry
  exact explains entry (List.mem_filterMap.mpr ⟨event, subset hevent, hview⟩)

theorem explains_reverse {events : List Event} :
    ledger.Explains events.reverse ↔ ledger.Explains events := by
  simp only [Explains, List.filterMap_reverse, List.mem_reverse]

theorem Explains.block {events : List Event} (explains : ledger.Explains events) {time : Nat}
    {number : String} {answer : Except Failure Block}
    (h : Event.answered time (.block number) answer ∈ events) :
    ledger.block number = answer.toOption :=
  explains _ (List.mem_filterMap.mpr ⟨_, h, rfl⟩)

theorem Explains.transaction {events : List Event} (explains : ledger.Explains events) {time : Nat}
    {hash : String} {answer : Except Failure Transaction}
    (h : Event.answered time (.transaction hash) answer ∈ events) :
    ledger.transaction hash = answer.toOption :=
  explains _ (List.mem_filterMap.mpr ⟨_, h, rfl⟩)

/-- A cache has nothing but what stands in the ledger. -/
structure Covers (ledger : Ledger) (cache : Cache) : Prop where
  blocks : ∀ number block, cache.blocks.find? number = some block →
    ledger.block number = some block
  transactions : ∀ hash transaction, cache.transactions.find? hash = some transaction →
    ledger.transaction hash = some transaction

/-- The transactions of a block, if it and all of them can be had. -/
def delivery (ledger : Ledger) (number : String) : Option (List Transaction) :=
  (ledger.block number).bind fun block =>
    if ∀ hash ∈ block.transactions, (ledger.transaction hash).isSome then
      some (block.transactions.filterMap ledger.transaction)
    else none

theorem delivery_of_no_block {number : String} (h : ledger.block number = none) :
    ledger.delivery number = none := by
  rw [delivery, h, Option.bind_none]

theorem delivery_of_no_transaction {number hash : String} {block : Block}
    (stored : ledger.block number = some block) (mem : hash ∈ block.transactions)
    (h : ledger.transaction hash = none) : ledger.delivery number = none := by
  rw [delivery, stored, Option.bind_some, if_neg]
  intro hall
  simpa [h] using hall hash mem

theorem delivery_of_all {number : String} {block : Block}
    (stored : ledger.block number = some block)
    (all : ∀ hash ∈ block.transactions, (ledger.transaction hash).isSome) :
    ledger.delivery number = some (block.transactions.filterMap ledger.transaction) := by
  rw [delivery, stored, Option.bind_some, if_pos all]

namespace Covers

theorem empty : ledger.Covers .empty where
  blocks number block h := by cases h
  transactions hash transaction h := by cases h

theorem congr {cache other : Cache} (covers : ledger.Covers cache)
    (blocks : other.blocks = cache.blocks)
    (transactions : other.transactions = cache.transactions) : ledger.Covers other where
  blocks number block h := covers.blocks number block (blocks ▸ h)
  transactions hash transaction h := covers.transactions hash transaction (transactions ▸ h)

theorem block {cache : Cache} {number : String} {block : Block} (covers : ledger.Covers cache)
    (h : cache.block number = .ok block) : ledger.block number = some block := by
  unfold Cache.block at h
  split at h
  · rename_i found hfound
    cases h
    exact covers.blocks number _ hfound
  · cases h

theorem find? {cache : Cache} {hash : String} (covers : ledger.Covers cache)
    (h : cache.transactions.contains hash = true) :
    ∃ transaction, cache.transactions.find? hash = some transaction ∧
      ledger.transaction hash = some transaction := by
  obtain ⟨transaction, hfound⟩ := Option.isSome_iff_exists.mp h
  exact ⟨transaction, hfound, covers.transactions hash transaction hfound⟩

theorem insertNew {α : Type} {table : Table α} {known : String → Option α} {key : String}
    {value : α} (covers : ∀ k v, table.find? k = some v → known k = some v)
    (h : known key = some value) :
    ∀ k v, (table.insertNew key value).find? k = some v → known k = some v := by
  intro k v hfound
  rw [Table.find?_insertNew] at hfound
  split at hfound
  · rename_i hkey
    cases hpresent : table.find? key with
    | none =>
        rw [hpresent, Option.getD_none] at hfound
        rw [hkey, h, hfound]
    | some present =>
        rw [hpresent, Option.getD_some] at hfound
        rw [hkey, covers key present hpresent, hfound]
  · exact covers k v hfound

/-- Learning an answer that the ledger explains preserves the cover. -/
theorem learn {cache : Cache} (covers : ledger.Covers cache) (labelled : ledger.Labelled)
    {events : List Event} (explains : ledger.Explains events) {time : Nat} {ask : Ask}
    {answer : ask.Answer} (h : Event.answered time ask (.ok answer) ∈ events) :
    ledger.Covers (cache.learn ask answer) := by
  cases ask with
  | head => exact covers
  | block number =>
      have hknown : ledger.block number = some answer := explains.block h
      exact ⟨insertNew covers.blocks hknown, covers.transactions⟩
  | transaction hash =>
      have hknown : ledger.transaction hash = some answer := explains.transaction h
      refine ⟨covers.blocks, insertNew covers.transactions ?_⟩
      rw [labelled hash answer hknown]
      exact hknown

end Covers

/-! ## What moves and strides keep -/

/-- An agenda on which no operation on the cache stands. -/
def Untouched (agenda : List (Appointment υ)) : Prop :=
  ∀ appointment ∈ agenda, ∀ call, appointment.action ≠ .cache call

theorem Untouched.suffix {before after : List (Appointment υ)} (untouched : Untouched before)
    (suffix : after <:+ before) : Untouched after :=
  fun appointment hmem => untouched appointment (suffix.subset hmem)

theorem Covers.move {node : Node σ υ} {shift after : Shift σ υ} (covers : ledger.Covers shift.cache)
    (labelled : ledger.Labelled) (move : Shift.Move node shift after)
    (untouched : Untouched shift.agenda)
    (explains : ledger.Explains after.history) : ledger.Covers after.cache := by
  cases move with
  | @keep appointment rest next =>
      show ledger.Covers (shift.act node appointment.action).2.cache
      rcases Shift.act_cache node shift appointment.action with ⟨call, hcall, -⟩ | ⟨_, -, hcache⟩
      · exact absurd hcall (untouched appointment (next ▸ List.mem_cons_self) call)
      · exact hcache ▸ covers.congr rfl rfl
  | learn told => exact covers.learn labelled explains List.mem_cons_self
  | pass later => exact covers
  | ask question => exact covers
  | start place hash => exact covers
  | refuse told => exact covers
  | crash crashes => exact covers

theorem Covers.moves {node : Node σ υ} {start now : Shift σ υ} (covers : ledger.Covers start.cache)
    (labelled : ledger.Labelled) (moves : Shift.Moves node start now)
    (untouched : Untouched start.agenda)
    (explains : ledger.Explains now.history) : ledger.Covers now.cache := by
  induction moves with
  | refl => exact covers
  | @tail middle after early move ih =>
      obtain ⟨_, _, before⟩ := Shift.Account.of_moves early
      obtain ⟨_, _, last⟩ := Shift.Account.of_move move
      have hmiddle : ledger.Covers middle.cache :=
        ih (explains.mono (last.history ▸ List.subset_append_right _ _))
      have hagenda : middle.agenda <:+ start.agenda := ⟨_, before.agenda.symm⟩
      exact hmiddle.move labelled move (untouched.suffix hagenda) explains

theorem Covers.stride {node : Node σ υ} {pace : Pace} {shift after : Shift σ υ}
    (covers : ledger.Covers shift.cache) (labelled : ledger.Labelled)
    (stride : Shift.Stride node pace shift after) (untouched : Untouched shift.agenda)
    (explains : ledger.Explains after.history) : ledger.Covers after.cache := by
  have hworked : ∀ {worked : Shift σ υ}, Shift.Moves node shift worked →
      worked.history <:+ after.history → ledger.Covers worked.cache :=
    fun moves history => covers.moves labelled moves untouched (explains.mono history.subset)
  cases stride.effect with
  | waits moves history cache current latest => exact cache ▸ hworked moves history
  | hears moves history heard cache watcher => exact cache ▸ hworked moves history
  | processes moves history candidate marked current latest =>
      obtain ⟨processed, hmarked, -⟩ := Cache.markProcessed_eq marked
      exact (hworked moves history).congr (by rw [hmarked]) (by rw [hmarked])

theorem Covers.strides {node : Node σ υ} {pace : Pace} {start last : Shift σ υ}
    (covers : ledger.Covers start.cache) (labelled : ledger.Labelled)
    (strides : Shift.Strides node pace start last) (untouched : Untouched start.agenda)
    (explains : ledger.Explains last.history) : ledger.Covers last.cache := by
  induction strides with
  | refl => exact covers
  | @tail middle after early stride ih =>
      have hmiddle : ledger.Covers middle.cache := ih (explains.mono stride.suffixes.1.subset)
      have hagenda : middle.agenda <:+ start.agenda := (Shift.Strides.suffixes early).2
      exact hmiddle.stride labelled stride (untouched.suffix hagenda) explains

/-! ## What the ledger decides -/

/-- An unavailable block has no delivery. -/
theorem delivery_of_unavailable {shift after : Shift σ υ} {number : String} {events : List Event}
    (inquiry : Shift.Inquiry shift after number events)
    (unavailable : ¬ Shift.Available shift events number)
    (explains : ledger.Explains events) : ledger.delivery number = none := by
  have hlacks : shift.cache.blocks.contains number = false := by
    rw [Bool.eq_false_iff]
    intro hcontains
    exact unavailable (Or.inl (Cache.exists_block_of_contains hcontains))
  obtain ⟨time, answer, hanswered⟩ := inquiry.answered hlacks
  cases answer with
  | ok block => exact absurd (Or.inr ⟨time, block, hanswered⟩) unavailable
  | error failure => exact delivery_of_no_block (explains.block hanswered)

/-- With a setback there is no delivery. -/
theorem delivery_of_setback {shift after : Shift σ υ} {number : String} {events : List Event}
    {failure : Failure} (inquiry : Shift.Inquiry shift after number events)
    (first : Resolution.firstSetback events = some failure) (covers : ledger.Covers after.cache)
    (explains : ledger.Explains events) : ledger.delivery number = none := by
  obtain ⟨late, time, hash, early, hsplit, -⟩ := Resolution.exists_of_firstSetback first
  have hanswered : Event.answered time (.transaction hash) (.error failure) ∈ events := by
    rw [hsplit]
    exact List.mem_append_right late List.mem_cons_self
  have hquestion : Ask.transaction hash ∈ questions events :=
    List.mem_filterMap.mpr ⟨_, hanswered, rfl⟩
  rcases inquiry.within _ hquestion with hblock | ⟨block, hstored, asked, hasked, hsame⟩
  · cases hblock
  · cases hsame
    exact delivery_of_no_transaction (covers.block hstored) hasked
      (explains.transaction hanswered)

/-- If a block was stored and all its transactions were taken without a setback, its delivery is
complete and the cache has all of it. -/
theorem delivery_of_taken {start now : Shift σ υ} {number : String} {events : List Event}
    {meanwhile : List (Appointment υ)} {block : Block}
    (account : Shift.Account start now events meanwhile)
    (first : Resolution.firstSetback events = none) (stored : now.cache.block number = .ok block)
    (taken : ∀ hash ∈ block.transactions,
      now.cache.transactions.contains hash = true ∨ Resolution.Answered events hash)
    (labelled : ledger.Labelled) (covers : ledger.Covers now.cache)
    (explains : ledger.Explains events) :
    ledger.delivery number = some (Shift.blockTransactions now.cache block) := by
  have hcached : ∀ hash ∈ block.transactions, now.cache.transactions.contains hash = true := by
    intro hash hhash
    rcases taken hash hhash with hcontains | ⟨time, answer, hanswered⟩
    · exact hcontains
    · cases answer with
      | error failure =>
          exact absurd hanswered
            (Resolution.firstSetback_eq_none_iff.mp first time hash failure)
      | ok transaction =>
          have hlabel : transaction.hash = hash := labelled _ _ (explains.transaction hanswered)
          exact hlabel ▸ account.learned.transactions time hash transaction hanswered
  have hall : ∀ hash ∈ block.transactions, (ledger.transaction hash).isSome := by
    intro hash hhash
    obtain ⟨transaction, -, hknown⟩ := covers.find? (hcached hash hhash)
    rw [hknown]
    rfl
  rw [delivery_of_all (covers.block stored) hall, Shift.blockTransactions]
  congr 1
  apply List.filterMap_congr
  intro hash hhash
  obtain ⟨transaction, hfound, hknown⟩ := covers.find? (hcached hash hhash)
  rw [hfound, hknown]

end Ledger

end BlockWatch
