import BlockWatch.Address
import BlockWatch.Payload
import BlockWatch.Table

/-!
# Buckets

Normative source: SPEC_FULL.md, section 4.3, `notifyForBlock`:

    buckets each transaction under its normalized `from` address and, if `to` is present and differs
    from `from`, also under normalized `to`.

`Buckets.ofList` models this grouping, one transaction at a time in block order.  The two addresses
are compared in canonical spelling, so a transaction from an address to itself, however it is
spelled, is in one bucket once.  `Buckets.get` is the look-up of a subscriber, with an empty bucket
for an address that no transaction involves.
-/

set_option autoImplicit false

namespace BlockWatch

namespace Buckets

/-- Put a transaction into one bucket. -/
def push (buckets : Table (List Transaction)) (address : String) (transaction : Transaction) :
    Table (List Transaction) :=
  buckets.alter address fun present => present.getD [] ++ [transaction]

/-- Put a transaction into the bucket of its recipient and into that of its sender, once where
they are the same. -/
def add (buckets : Table (List Transaction)) (transaction : Transaction) :
    Table (List Transaction) :=
  let sender := Address.canonical transaction.sender
  match transaction.recipient.map Address.canonical with
  | some recipient =>
      if recipient = sender then push buckets sender transaction
      else push (push buckets recipient transaction) sender transaction
  | none => push buckets sender transaction

/-- The buckets of a list of transactions. -/
def ofList (transactions : List Transaction) : Table (List Transaction) :=
  transactions.foldl add ⟨[]⟩

/-- The bucket of an address, empty where no transaction involves it. -/
def get (buckets : Table (List Transaction)) (address : String) : List Transaction :=
  (buckets.find? address).getD []

end Buckets

end BlockWatch
