import BlockWatch.Json.Printer

/-!
# Payloads

Normative source: SPEC_FULL.md, section 3:

    **Block**: `{ hash: string, transactionHashes: ordered sequence of string }`. Immutable once
    stored.
    **Transaction**: `{ hash, from: Address, to: optional Address, ...remaining opaque RPC fields
    carried through unchanged }`.

The three records of module `types`: what a node tells about blocks and transactions, and what a
subscriber is told.  Only the fields that the watcher reads have a type of their own.  Everything
else that a node says about a transaction is carried along unread (`Transaction.extra`).

Each payload has its fields in a fixed order, `fields`, in which its text is written, and is as a
JSON value the object with these members (`toJson`).  Reading is in `Payload.Reader`.
-/

set_option autoImplicit false

namespace BlockWatch

/-- A block: its hash and the hashes of its transactions, in block order. -/
structure Block where
  hash : String
  transactions : List String := []
  deriving DecidableEq, Repr, Inhabited

/-- A transaction.  One that creates a contract has no recipient. -/
structure Transaction where
  hash : String
  sender : String
  recipient : Option String := none
  /-- what else the node said, in ascending order of the keys -/
  extra : List (String × Json) := []
  deriving Repr, Inhabited

/-- What one subscriber is told about one block: the transactions that touch its address. -/
structure Notification where
  address : String
  transactions : List Transaction
  deriving Repr, Inhabited

/-! ## Blocks -/

namespace Block

/-- The fields of a block. -/
def fields (block : Block) : List (String × Json) :=
  [("hash", .string block.hash), ("transactions", .array (block.transactions.map .string))]

/-- A block as a JSON value. -/
def toJson (block : Block) : Json := .ofMembers block.fields

/-- A block as a text. -/
def text (block : Block) : String := (Json.object block.fields).text

end Block

/-! ## Transactions -/

namespace Transaction

/-- Whether `address` is the sender or the recipient, letter for letter. -/
def touches (transaction : Transaction) (address : String) : Bool :=
  transaction.sender = address || transaction.recipient = some address

/-- The keys of the fields that have a type of their own. -/
def ownKeys : List String := ["hash", "from", "to"]

/-- The fields of a transaction; the recipient is always among them. -/
def fields (transaction : Transaction) : List (String × Json) :=
  [("hash", .string transaction.hash), ("from", .string transaction.sender),
   ("to", .ofText? transaction.recipient)] ++ transaction.extra

/-- A transaction as a JSON value. -/
def toJson (transaction : Transaction) : Json := .ofMembers transaction.fields

/-- A transaction as a text. -/
def text (transaction : Transaction) : String := (Json.object transaction.fields).text

end Transaction

/-! ## Notifications -/

namespace Notification

/-- A notification as a JSON value. -/
def toJson (notification : Notification) : Json :=
  .ofMembers
    [("address", .string notification.address),
     ("txs", .array (notification.transactions.map Transaction.toJson))]

/-- A notification as a text. -/
def text (notification : Notification) : String :=
  (Json.object
    [("address", .string notification.address),
     ("txs", .array (notification.transactions.map fun t => .object t.fields))]).text

end Notification

end BlockWatch
