import BlockWatch.Proofs.Cache
import BlockWatch.Proofs.Roster
import Mathlib.Data.List.Induction
import Mathlib.Data.List.Nodup

/-!
# What calls leave behind

Normative source: SPEC_FULL.md, section 4.2:

    `AddBlock(number, block)`: first write wins; repeat calls with the same key are no-ops, never
    error.

What is to be answered to a call is determined by the calls before it, and this module states how,
without a cache: by the first block under a number and the first transaction under a hash, by the
marks that blocks got which were there, and by the addresses that were subscribed and not
unsubscribed since, in the order in which they were entered.  `Answers` reads an answer off the
calls alone, with one constructor for each kind of call and result.

The lemmas give every view after one call more, so that inductions over sequences of calls need no
other facts about lists.
-/

set_option autoImplicit false

namespace BlockWatch.Cache

/-! ## Views of the calls -/

/-- The first block that came under a number. -/
def firstBlock? (history : List Call) (number : String) : Option Block :=
  (history.filterMap Call.addedBlock?).lookup number

/-- The first transaction that came with a hash of its own. -/
def firstTransaction? (history : List Call) (hash : String) : Option Transaction :=
  (history.filterMap Call.added?).find? (·.hash = hash)

/-- A number was marked when there was a block under it. -/
def Marked (history : List Call) (number : String) : Prop :=
  ∃ early late block, history = early ++ .markProcessed number :: late ∧
    .addBlock number block ∈ early

/-- An address was subscribed and not unsubscribed since. -/
def Present (history : List Call) (address : String) : Prop :=
  ∃ early late, history = early ++ .subscribe address :: late ∧ .unsubscribe address ∉ late

/-- The call at a place put in an address that was not there, and it stayed since. -/
def EnteredAt (history : List Call) (address : String) (place : Nat) : Prop :=
  ∃ early late, history = early ++ .subscribe address :: late ∧ early.length = place ∧
    ¬ Present early address ∧ .unsubscribe address ∉ late

/-- An address was put in before another one. -/
def EnteredBefore (history : List Call) (address other : String) : Prop :=
  ∃ place later, EnteredAt history address place ∧ EnteredAt history other later ∧ place < later

/-- The addresses that are there, each once, in the order in which they were put in. -/
structure Listed (history : List Call) (addresses : List String) : Prop where
  nodup : addresses.Nodup
  mem_iff : ∀ address, address ∈ addresses ↔ Present history address
  ordered : addresses.Pairwise (EnteredBefore history)

/-- The first transactions under their hashes that an address sent or got, each once. -/
structure Touching (history : List Call) (address : String)
    (transactions : List Transaction) : Prop where
  nodup : (transactions.map (·.hash)).Nodup
  mem_iff : ∀ transaction, transaction ∈ transactions ↔
    firstTransaction? history transaction.hash = some transaction ∧
      (transaction.sender = address ∨ transaction.recipient = some address)

/-- What the calls so far make the answer to one more call. -/
inductive Answers (history : List Call) : Call → Except Failure Answer → Prop
  | addBlock (number : String) (block : Block) :
      Answers history (.addBlock number block) (.ok .done)
  | block {number : String} {block : Block} (first : firstBlock? history number = some block) :
      Answers history (.block number) (.ok (.block block))
  | noBlock {number : String} (unknown : firstBlock? history number = none) :
      Answers history (.block number) (.error (.blockNotFound number))
  | mark {number : String} {block : Block} (first : firstBlock? history number = some block) :
      Answers history (.markProcessed number) (.ok .done)
  | noMark {number : String} (unknown : firstBlock? history number = none) :
      Answers history (.markProcessed number) (.error (.blockNotFound number))
  | isProcessed {number : String} {block : Block} {processed : Bool}
      (first : firstBlock? history number = some block)
      (marked : processed = true ↔ Marked history number) :
      Answers history (.isProcessed number) (.ok (.flag processed))
  | notProcessed {number : String} (unknown : firstBlock? history number = none) :
      Answers history (.isProcessed number) (.error (.blockNotFound number))
  | addTransaction (transaction : Transaction) :
      Answers history (.addTransaction transaction) (.ok .done)
  | transaction {hash : String} {transaction : Transaction}
      (first : firstTransaction? history hash = some transaction) :
      Answers history (.transaction hash) (.ok (.transaction transaction))
  | noTransaction {hash : String} (unknown : firstTransaction? history hash = none) :
      Answers history (.transaction hash) (.error (.transactionNotFound hash))
  | transactionsOf {address : String} {transactions : List Transaction}
      (touching : Touching history address transactions) :
      Answers history (.transactionsOf address) (.ok (.transactions transactions))
  | subscribe {address : String} {addresses : List String}
      (listed : Listed (history ++ [.subscribe address]) addresses) :
      Answers history (.subscribe address) (.ok (.addresses addresses))
  | unsubscribe {address : String} {addresses : List String} (present : Present history address)
      (listed : Listed (history ++ [.unsubscribe address]) addresses) :
      Answers history (.unsubscribe address) (.ok (.addresses addresses))
  | noUnsubscribe {address : String} (absent : ¬ Present history address) :
      Answers history (.unsubscribe address) (.error (.addressNotFound address))
  | subscriptions {addresses : List String} (listed : Listed history addresses) :
      Answers history .subscriptions (.ok (.addresses addresses))

/-! ## One call more -/

theorem firstBlock?_concat (history : List Call) (call : Call) (number : String) :
    firstBlock? (history ++ [call]) number =
      (firstBlock? history number).or (call.addedBlock?.toList.lookup number) := by
  unfold firstBlock?
  rw [List.filterMap_append, List.lookup_append]
  cases call <;> rfl

theorem firstTransaction?_concat (history : List Call) (call : Call) (hash : String) :
    firstTransaction? (history ++ [call]) hash =
      (firstTransaction? history hash).or (call.added?.toList.find? (·.hash = hash)) := by
  unfold firstTransaction?
  rw [List.filterMap_append, List.find?_append]
  cases call <;> rfl

theorem hash_of_firstTransaction? {history : List Call} {hash : String} {transaction : Transaction}
    (h : firstTransaction? history hash = some transaction) : transaction.hash = hash := by
  simpa using List.find?_some h

theorem isSome_firstBlock? {history : List Call} {number : String} :
    (firstBlock? history number).isSome = true ↔ ∃ block, .addBlock number block ∈ history := by
  rw [firstBlock?, List.lookup_isSome_iff]
  constructor
  · rintro ⟨⟨other, block⟩, hadded, hsame⟩
    obtain ⟨call, hcall, hputs⟩ := List.mem_filterMap.mp hadded
    obtain rfl := beq_iff_eq.mp hsame
    cases call with
    | addBlock =>
        cases hputs
        exact ⟨block, hcall⟩
    | _ => cases hputs
  · rintro ⟨block, hcall⟩
    exact ⟨(number, block), List.mem_filterMap.mpr ⟨_, hcall, rfl⟩, beq_self_eq_true number⟩

/-- If a list with a last entry is cut at an entry, that entry is the last one or the last one is in
the rest. -/
theorem cases_of_concat_eq {α : Type} {front early late : List α} {last entry : α}
    (h : front ++ [last] = early ++ entry :: late) :
    (front = early ∧ last = entry ∧ late = []) ∨
      ∃ before, late = before ++ [last] ∧ front = early ++ entry :: before := by
  rcases List.eq_nil_or_concat late with rfl | ⟨before, other, rfl⟩
  · obtain ⟨hfront, hlast⟩ := List.append_inj' h rfl
    exact Or.inl ⟨hfront, List.singleton_inj.mp hlast, rfl⟩
  · rw [List.concat_eq_append, ← List.cons_append, ← List.append_assoc] at h
    obtain ⟨hfront, hlast⟩ := List.append_inj' h rfl
    obtain rfl := List.singleton_inj.mp hlast
    exact Or.inr ⟨before, List.concat_eq_append, hfront⟩

/-- A mark is made by the last call, where there is a block, or was made before. -/
theorem marked_concat {history : List Call} {call : Call} {number : String} :
    Marked (history ++ [call]) number ↔ Marked history number ∨
      call = .markProcessed number ∧ (firstBlock? history number).isSome = true := by
  rw [isSome_firstBlock?]
  constructor
  · rintro ⟨early, late, block, heq, hadded⟩
    rcases cases_of_concat_eq heq with ⟨rfl, rfl, rfl⟩ | ⟨before, rfl, rfl⟩
    · exact Or.inr ⟨rfl, block, hadded⟩
    · exact Or.inl ⟨early, before, block, rfl, hadded⟩
  · rintro (⟨early, late, block, rfl, hadded⟩ | ⟨rfl, block, hadded⟩)
    · exact ⟨early, late ++ [call], block, by simp, hadded⟩
    · exact ⟨history, [], block, rfl, hadded⟩

/-- An address is present if the last call subscribes it, or if it was present and the last call
does not unsubscribe it. -/
theorem present_concat {history : List Call} {call : Call} {address : String} :
    Present (history ++ [call]) address ↔
      call = .subscribe address ∨ Present history address ∧ call ≠ .unsubscribe address := by
  constructor
  · rintro ⟨early, late, heq, hstays⟩
    rcases cases_of_concat_eq heq with ⟨rfl, rfl, rfl⟩ | ⟨before, rfl, rfl⟩
    · exact Or.inl rfl
    · rw [List.mem_append, not_or, List.mem_singleton] at hstays
      exact Or.inr ⟨⟨early, before, rfl, hstays.1⟩, Ne.symm hstays.2⟩
  · rintro (rfl | ⟨⟨early, late, rfl, hstays⟩, hcall⟩)
    · exact ⟨history, [], rfl, List.not_mem_nil⟩
    · exact ⟨early, late ++ [call], by simp, by simp [hstays, hcall.symm]⟩

/-- An address stays where it was entered, unless the last call unsubscribes it. -/
theorem EnteredAt.concat {history : List Call} {address : String} {place : Nat}
    (entered : EnteredAt history address place) {call : Call} (h : call ≠ .unsubscribe address) :
    EnteredAt (history ++ [call]) address place := by
  obtain ⟨early, late, rfl, hplace, hnew, hstays⟩ := entered
  exact ⟨early, late ++ [call], by simp, hplace, hnew, by simp [hstays, h.symm]⟩

theorem EnteredBefore.concat {history : List Call} {address other : String}
    (before : EnteredBefore history address other) {call : Call}
    (first : call ≠ .unsubscribe address) (second : call ≠ .unsubscribe other) :
    EnteredBefore (history ++ [call]) address other := by
  obtain ⟨place, later, hfirst, hsecond, hlt⟩ := before
  exact ⟨place, later, hfirst.concat first, hsecond.concat second, hlt⟩

theorem Present.enteredAt {history : List Call} {address : String}
    (present : Present history address) :
    ∃ place, EnteredAt history address place ∧ place < history.length := by
  induction history using List.reverseRecOn with
  | nil =>
      obtain ⟨early, late, heq, -⟩ := present
      simp at heq
  | append_singleton history call ih =>
      -- Where it was there before, one of the earlier calls put it in, and otherwise the last one.
      by_cases hbefore : Present history address
      · obtain ⟨place, hplace, hlt⟩ := ih hbefore
        have hcall : call ≠ .unsubscribe address := by
          rintro rfl
          simpa using present_concat.mp present
        exact ⟨place, hplace.concat hcall, by simpa using Nat.lt_succ_of_lt hlt⟩
      · have hcall : call = .subscribe address :=
          (present_concat.mp present).resolve_right fun h => hbefore h.1
        refine ⟨history.length, ⟨history, [], ?_, rfl, hbefore, List.not_mem_nil⟩, by simp⟩
        rw [hcall]

/-! ## The lists after one call more -/

theorem listed_nil : Listed [] [] where
  nodup := List.nodup_nil
  mem_iff address := by simp [Present]
  ordered := List.Pairwise.nil

variable {history : List Call} {addresses : List String}

theorem Listed.subscribe (listed : Listed history addresses) (address : String) :
    Listed (history ++ [.subscribe address]) (Roster.add addresses address) := by
  have hordered : addresses.Pairwise (EnteredBefore (history ++ [.subscribe address])) :=
    listed.ordered.imp fun before => before.concat (by simp) (by simp)
  -- No place of an address that is there moves, and the place of a new one is the last.
  by_cases hmem : address ∈ addresses
  · rw [Roster.add_of_mem hmem]
    refine ⟨listed.nodup, fun other => ?_, hordered⟩
    rw [present_concat, ← listed.mem_iff]
    simp only [Call.subscribe.injEq, ne_eq, reduceCtorEq, not_false_eq_true, and_true]
    exact ⟨Or.inr, fun h => h.elim (fun hsame => hsame ▸ hmem) id⟩
  · rw [Roster.add_of_not_mem hmem]
    have hnew : EnteredAt (history ++ [.subscribe address]) address history.length :=
      ⟨history, [], rfl, rfl, mt (listed.mem_iff address).mpr hmem, List.not_mem_nil⟩
    refine ⟨?_, fun other => ?_, ?_⟩
    · exact Roster.add_of_not_mem hmem ▸ Roster.nodup_add listed.nodup address
    · rw [present_concat, ← listed.mem_iff]
      simp [or_comm, eq_comm]
    · refine List.pairwise_append.mpr ⟨hordered, List.pairwise_singleton _ _, ?_⟩
      intro other hother last hlast
      obtain rfl := List.mem_singleton.mp hlast
      obtain ⟨place, hplace, hlt⟩ := ((listed.mem_iff other).mp hother).enteredAt
      exact ⟨place, history.length, hplace.concat (by simp), hnew, hlt⟩

theorem Listed.unsubscribe (listed : Listed history addresses) (address : String) :
    Listed (history ++ [.unsubscribe address]) (addresses.erase address) where
  nodup := listed.nodup.erase address
  mem_iff other := by
    rw [listed.nodup.mem_erase_iff, present_concat, listed.mem_iff]
    simp [and_comm, eq_comm]
  ordered := by
    refine (listed.ordered.sublist List.erase_sublist).imp_of_mem ?_
    intro first second hfirst hsecond before
    have hne : ∀ {other}, other ∈ addresses.erase address →
        Call.unsubscribe address ≠ .unsubscribe other := fun hother hsame =>
      (listed.nodup.mem_erase_iff.mp hother).1 (Call.unsubscribe.inj hsame).symm
    exact before.concat (hne hfirst) (hne hsecond)

theorem Listed.other (listed : Listed history addresses) {call : Call}
    (comes : ∀ address, call ≠ .subscribe address)
    (goes : ∀ address, call ≠ .unsubscribe address) : Listed (history ++ [call]) addresses where
  nodup := listed.nodup
  mem_iff address := by
    rw [listed.mem_iff, present_concat]
    simp [comes, goes]
  ordered := listed.ordered.imp fun before => before.concat (goes _) (goes _)

end BlockWatch.Cache
