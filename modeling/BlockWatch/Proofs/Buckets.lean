import BlockWatch.Buckets
import Mathlib.Algebra.Ring.Nat
import Mathlib.Data.List.Basic
import Mathlib.Data.List.Induction

/-!
# What is in a bucket

Normative source: SPEC_FULL.md, section 4.3, `notifyForBlock`:

    buckets each transaction under its normalized `from` address and, if `to` is present and differs
    from `from`, also under normalized `to`.

The specification of a bucket is stated with the sender, the recipient and `Address.canonical`, not
with the way in which buckets are filled.  `Buckets.ofList_lossless` is about every list of
transactions: the bucket of an address is the sublist of those that it sends or receives, in their
order and each as often as it occurs; there is a bucket for these addresses and for no others; and
the buckets hold every transaction once, and once more if the recipient is another address than the
sender.

The proof is by induction on the list from its end, because `Buckets.add` appends.  `get_push` and
`get_add` are the step lemmas, and the sizes are sums over the table (`Table.sum_values_alter`).
-/

set_option autoImplicit false

namespace BlockWatch

/-! ## Sums over a table -/

namespace Table

variable {α : Type}

theorem sum_alterEntries (measure : α → Nat) (key : String) (f : Option α → α)
    (entries : List (String × α)) :
    ((alterEntries key f entries).map fun entry => measure entry.2).sum +
        ((entries.lookup key).map measure).getD 0 =
      (entries.map fun entry => measure entry.2).sum + measure (f (entries.lookup key)) := by
  induction entries with
  | nil => simp [alterEntries]
  | cons entry rest ih =>
      obtain ⟨other, value⟩ := entry
      unfold alterEntries
      by_cases ho : key = other
      · rw [if_pos ho, ho, List.lookup_cons_self]
        simp only [List.map_cons, List.sum_cons, Option.map_some, Option.getD_some]
        omega
      · rw [if_neg ho, lookup_cons_ne ho]
        simp only [List.map_cons, List.sum_cons]
        omega

/-- Giving a key another value subtracts the measure of its present one from the sum over all values
and adds that of the new one. -/
theorem sum_values_alter (measure : α → Nat) (table : Table α) (key : String)
    (f : Option α → α) :
    ((table.alter key f).values.map measure).sum + ((table.find? key).map measure).getD 0 =
      (table.values.map measure).sum + measure (f (table.find? key)) := by
  rw [values, values, List.map_map, List.map_map]
  exact sum_alterEntries measure key f table.entries

end Table

/-! ## Whom a transaction involves -/

namespace Transaction

/-- Whether an address in canonical spelling is that of the sender or of the recipient. -/
def involves (transaction : Transaction) (address : String) : Bool :=
  Address.canonical transaction.sender = address ∨
    transaction.recipient.map Address.canonical = some address

/-- Whether there is a recipient, and another address than the sender. -/
def hasOtherRecipient (transaction : Transaction) : Bool :=
  transaction.recipient.any fun recipient =>
    Address.canonical recipient ≠ Address.canonical transaction.sender

theorem hasOtherRecipient_iff {transaction : Transaction} :
    transaction.hasOtherRecipient = true ↔
      ∃ recipient, transaction.recipient.map Address.canonical = some recipient ∧
        recipient ≠ Address.canonical transaction.sender := by
  simp [hasOtherRecipient, Option.any_eq_true]

theorem involves_iff_of_not_other {transaction : Transaction}
    (h : ¬ transaction.hasOtherRecipient = true) (address : String) :
    transaction.involves address = true ↔ Address.canonical transaction.sender = address := by
  rw [hasOtherRecipient_iff, not_exists] at h
  simp only [involves, decide_eq_true_eq, or_iff_left_iff_imp]
  exact fun hrecipient => (not_not.mp fun hne => h address ⟨hrecipient, hne ∘ Eq.symm⟩)

end Transaction

namespace Buckets

/-! ## Putting transactions into buckets -/

theorem add_of_not_other {transaction : Transaction} (h : ¬ transaction.hasOtherRecipient = true)
    (buckets : Table (List Transaction)) :
    add buckets transaction = push buckets (Address.canonical transaction.sender) transaction := by
  rw [Transaction.hasOtherRecipient_iff, not_exists] at h
  unfold add
  cases hrecipient : transaction.recipient.map Address.canonical with
  | none => rfl
  | some recipient => exact if_pos (not_not.mp fun hne => h recipient ⟨hrecipient, hne⟩)

theorem add_of_other {transaction : Transaction} (h : transaction.hasOtherRecipient = true)
    (buckets : Table (List Transaction)) :
    ∃ recipient, transaction.recipient.map Address.canonical = some recipient ∧
      recipient ≠ Address.canonical transaction.sender ∧
      add buckets transaction =
        push (push buckets recipient transaction) (Address.canonical transaction.sender)
          transaction := by
  obtain ⟨recipient, hrecipient, hother⟩ := Transaction.hasOtherRecipient_iff.mp h
  refine ⟨recipient, hrecipient, hother, ?_⟩
  unfold add
  rw [hrecipient]
  exact if_neg hother

theorem ofList_concat (transactions : List Transaction) (last : Transaction) :
    ofList (transactions ++ [last]) = add (ofList transactions) last :=
  List.foldl_concat ..

/-- Induction over pushes: what holds of no buckets and is preserved by `push` holds of `ofList`. -/
theorem ofList_of_push {P : Table (List Transaction) → Prop} (empty : P ⟨[]⟩)
    (step : ∀ buckets address transaction, P buckets → P (push buckets address transaction))
    (transactions : List Transaction) : P (ofList transactions) := by
  induction transactions using List.reverseRecOn with
  | nil => exact empty
  | append_singleton rest transaction ih =>
      rw [ofList_concat]
      by_cases h : transaction.hasOtherRecipient = true
      · obtain ⟨recipient, -, -, hadd⟩ := add_of_other h (ofList rest)
        rw [hadd]
        exact step _ _ _ (step _ _ _ ih)
      · rw [add_of_not_other h]
        exact step _ _ _ ih

/-! ## The bucket of an address -/

theorem get_push (buckets : Table (List Transaction)) (address : String)
    (transaction : Transaction) (a : String) :
    get (push buckets address transaction) a =
      get buckets a ++ if address = a then [transaction] else [] := by
  unfold get push
  rw [Table.find?_alter]
  by_cases h : a = address
  · rw [if_pos h, if_pos h.symm, h, Option.getD_some]
  · rw [if_neg h, if_neg (Ne.symm h), List.append_nil]

/-- A transaction is appended to the buckets of the addresses that it involves, once to each. -/
theorem get_add (buckets : Table (List Transaction)) (transaction : Transaction) (a : String) :
    get (add buckets transaction) a =
      get buckets a ++ if transaction.involves a = true then [transaction] else [] := by
  by_cases h : transaction.hasOtherRecipient = true
  · obtain ⟨recipient, hrecipient, hother, hadd⟩ := add_of_other h buckets
    rw [hadd, get_push, get_push, List.append_assoc]
    by_cases hs : Address.canonical transaction.sender = a
    · have hr : recipient ≠ a := fun h => hother (h.trans hs.symm)
      simp [Transaction.involves, hs, hr]
    · simp [Transaction.involves, hrecipient, hs]
  · rw [add_of_not_other h, get_push]
    simp only [Transaction.involves_iff_of_not_other h]

/-- The bucket of an address holds the transactions that involve it, in their order. -/
theorem get_ofList (transactions : List Transaction) (a : String) :
    get (ofList transactions) a = transactions.filter (·.involves a) := by
  induction transactions using List.reverseRecOn with
  | nil => rfl
  | append_singleton rest transaction ih =>
      rw [ofList_concat, get_add, ih, List.filter_append, List.filter_singleton]
      cases transaction.involves a <;> rfl

/-- A transaction whose sender and recipient are one address in two spellings. -/
example : get (ofList [⟨"0x1", "0x0a", some "0x00a", []⟩]) "0xa" =
    [⟨"0x1", "0x0a", some "0x00a", []⟩] := by
  rfl

theorem get_erase_of_ne (buckets : Table (List Transaction)) {address a : String}
    (h : a ≠ address) : get (buckets.erase address) a = get buckets a := by
  unfold get
  rw [Table.find?_erase, if_neg h]

/-! ## The addresses that have a bucket -/

/-- No bucket is without transactions. -/
def AllFilled (buckets : Table (List Transaction)) : Prop :=
  ∀ address, buckets.find? address ≠ some []

theorem AllFilled.push {buckets : Table (List Transaction)} (filled : AllFilled buckets)
    (address : String) (transaction : Transaction) :
    AllFilled (push buckets address transaction) := by
  intro a
  unfold Buckets.push
  rw [Table.find?_alter]
  split
  · simp
  · exact filled a

theorem allFilled_ofList (transactions : List Transaction) : AllFilled (ofList transactions) := by
  refine ofList_of_push ?_ ?_ transactions
  · intro address
    simp [Table.find?_empty]
  · exact fun _ address transaction filled => filled.push address transaction

/-- If no bucket is empty, an address has a bucket exactly if there are transactions in it. -/
theorem AllFilled.contains_iff {buckets : Table (List Transaction)} (filled : AllFilled buckets)
    (address : String) : buckets.contains address = true ↔ get buckets address ≠ [] := by
  have haddress := filled address
  unfold Table.contains get
  cases hfind : buckets.find? address with
  | none => simp
  | some bucket => simpa [hfind] using haddress

theorem nodup_keys_ofList (transactions : List Transaction) :
    (ofList transactions).keys.Nodup := by
  refine ofList_of_push (P := fun buckets => buckets.keys.Nodup) ?_ ?_ transactions
  · exact List.nodup_nil
  · exact fun _ address _ nodup => Table.nodup_keys_alter nodup address _

/-! ## How much the buckets hold -/

/-- How many transactions the buckets hold together. -/
def size (buckets : Table (List Transaction)) : Nat := (buckets.values.map List.length).sum

theorem size_push (buckets : Table (List Transaction)) (address : String)
    (transaction : Transaction) : size (push buckets address transaction) = size buckets + 1 := by
  have hsum := Table.sum_values_alter List.length buckets address
    fun present => present.getD [] ++ [transaction]
  unfold size push
  cases hfind : buckets.find? address with
  | none => simpa [hfind] using hsum
  | some bucket =>
      simp only [hfind, Option.map_some, Option.getD_some, List.length_append,
        List.length_singleton] at hsum
      omega

theorem size_add (buckets : Table (List Transaction)) (transaction : Transaction) :
    size (add buckets transaction) =
      size buckets + 1 + if transaction.hasOtherRecipient = true then 1 else 0 := by
  by_cases h : transaction.hasOtherRecipient = true
  · obtain ⟨recipient, -, -, hadd⟩ := add_of_other h buckets
    rw [hadd, size_push, size_push, if_pos h]
  · rw [add_of_not_other h, size_push, if_neg h, Nat.add_zero]

theorem size_ofList (transactions : List Transaction) :
    size (ofList transactions) =
      transactions.length + transactions.countP (·.hasOtherRecipient) := by
  induction transactions using List.reverseRecOn with
  | nil => rfl
  | append_singleton rest transaction ih =>
      rw [ofList_concat, size_add, ih, List.length_append, List.length_singleton,
        List.countP_append, List.countP_singleton]
      omega

/-- Every transaction is in the buckets of the addresses that it involves, in its place and as often
as it occurs, and nothing else is in a bucket.  There is one bucket for each address that is
involved and none for any other. -/
theorem ofList_lossless (transactions : List Transaction) :
    (∀ a, get (ofList transactions) a =
        transactions.filter fun transaction =>
          Address.canonical transaction.sender = a ∨
            transaction.recipient.map Address.canonical = some a) ∧
      (∀ a, (ofList transactions).contains a = true ↔
        ∃ transaction ∈ transactions,
          Address.canonical transaction.sender = a ∨
            transaction.recipient.map Address.canonical = some a) ∧
      (ofList transactions).keys.Nodup ∧
      ((ofList transactions).values.map List.length).sum =
        transactions.length + transactions.countP fun transaction =>
          transaction.recipient.any fun recipient =>
            Address.canonical recipient ≠ Address.canonical transaction.sender := by
  refine ⟨get_ofList transactions, fun a => ?_, nodup_keys_ofList transactions,
    size_ofList transactions⟩
  rw [(allFilled_ofList transactions).contains_iff, get_ofList, ne_eq, List.filter_eq_nil_iff,
    not_forall]
  simp only [Transaction.involves, decide_eq_true_eq, Classical.not_imp, not_not]

end Buckets

end BlockWatch
