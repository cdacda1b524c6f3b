import BlockWatch.Failure
import BlockWatch.Payload
import BlockWatch.Roster
import BlockWatch.Table

/-!
# The cache

Normative source: SPEC_FULL.md, section 3, on the state of the cache:

    `blocks: map[BlockNumber]Block` (write-once per key), `processed: set[BlockNumber]`,
    `transactions: map[hash]Transaction` (write-once per key),
    `subscriptions: ordered set[Address]`.

The operations are those of section 4.2, one definition for each: `AddBlock`, `GetBlock`,
`SetBlockProcessed`, `GetBlockProcessed`, `AddTx`, `GetTx`, `TxForAddress`, `Subscribe` and
`Unsubscribe`.  A transaction is stored under the hash that it carries.  `TxForAddress` compares
addresses letter for letter.

Every operation is also a value of `Cache.Call`, so that a sequence of operations is a list.
`Cache.perform` performs one of them.  `Cache.consult` is the same for a caller who looks at the
subscriptions whenever it has changed them, and `Cache.performAll` does this with a sequence.

The lock of section 4.2 has no counterpart.  An operation holds it from its beginning to its end, so
operations of different callers are calls one after the other.
-/

set_option autoImplicit false

namespace BlockWatch

/-- Blocks by number, transactions by hash, the numbers of the processed blocks, and the
subscribed addresses in the order in which they were subscribed. -/
structure Cache where
  blocks : Table Block := ⟨[]⟩
  transactions : Table Transaction := ⟨[]⟩
  processed : List String := []
  subscriptions : List String := []
  deriving Repr, Inhabited

namespace Cache

/-- A cache that knows nothing. -/
def empty : Cache := {}

/-! ## Blocks -/

/-- Store a block under its number unless there is one already. -/
def addBlock (cache : Cache) (number : String) (block : Block) : Cache :=
  { cache with blocks := cache.blocks.insertNew number block }

/-- The block under a number. -/
def block (cache : Cache) (number : String) : Except Failure Block :=
  match cache.blocks.find? number with
  | some block => .ok block
  | none => .error (.blockNotFound number)

/-- Mark a block that is stored as processed. -/
def markProcessed (cache : Cache) (number : String) : Except Failure Cache :=
  if cache.blocks.contains number then
    if cache.processed.contains number then .ok cache
    else .ok { cache with processed := cache.processed ++ [number] }
  else .error (.blockNotFound number)

/-- Whether a block that is stored is marked as processed. -/
def isProcessed (cache : Cache) (number : String) : Except Failure Bool :=
  if cache.blocks.contains number then .ok (cache.processed.contains number)
  else .error (.blockNotFound number)

/-! ## Transactions -/

/-- Store a transaction under its own hash unless there is one already. -/
def addTransaction (cache : Cache) (transaction : Transaction) : Cache :=
  { cache with transactions := cache.transactions.insertNew transaction.hash transaction }

/-- The transaction under a hash. -/
def transaction (cache : Cache) (hash : String) : Except Failure Transaction :=
  match cache.transactions.find? hash with
  | some transaction => .ok transaction
  | none => .error (.transactionNotFound hash)

/-- The stored transactions whose sender or recipient is `address`, letter for letter. -/
def transactionsOf (cache : Cache) (address : String) : List Transaction :=
  cache.transactions.values.filter (·.touches address)

/-! ## Subscriptions -/

/-- Add an address unless it is there. -/
def subscribe (cache : Cache) (address : String) : Cache :=
  { cache with subscriptions := Roster.add cache.subscriptions address }

/-- Remove an address that is there. -/
def unsubscribe (cache : Cache) (address : String) : Except Failure Cache :=
  match Roster.remove? cache.subscriptions address with
  | some rest => .ok { cache with subscriptions := rest }
  | none => .error (.addressNotFound address)

/-! ## Operations as values -/

/-- An operation on a cache. -/
inductive Call where
  | addBlock (number : String) (block : Block)
  | block (number : String)
  | markProcessed (number : String)
  | isProcessed (number : String)
  | addTransaction (transaction : Transaction)
  | transaction (hash : String)
  | transactionsOf (address : String)
  | subscribe (address : String)
  | unsubscribe (address : String)
  | subscriptions
  deriving Repr, Inhabited

/-- What an operation answers. -/
inductive Answer where
  | done
  | block (block : Block)
  | flag (b : Bool)
  | transaction (transaction : Transaction)
  | transactions (transactions : List Transaction)
  | addresses (addresses : List String)
  deriving Repr, Inhabited

/-- Perform an operation that changes the cache; one that fails changes nothing. -/
def change (cache : Cache) : Except Failure Cache → Except Failure Answer × Cache
  | .ok changed => (.ok .done, changed)
  | .error failure => (.error failure, cache)

/-- Perform an operation: its answer and the cache after it. -/
def perform (cache : Cache) : Call → Except Failure Answer × Cache
  | .addBlock number block => cache.change (.ok (cache.addBlock number block))
  | .block number => ((cache.block number).map .block, cache)
  | .markProcessed number => cache.change (cache.markProcessed number)
  | .isProcessed number => ((cache.isProcessed number).map .flag, cache)
  | .addTransaction transaction => cache.change (.ok (cache.addTransaction transaction))
  | .transaction hash => ((cache.transaction hash).map .transaction, cache)
  | .transactionsOf address => (.ok (.transactions (cache.transactionsOf address)), cache)
  | .subscribe address => cache.change (.ok (cache.subscribe address))
  | .unsubscribe address => cache.change (cache.unsubscribe address)
  | .subscriptions => (.ok (.addresses cache.subscriptions), cache)

/-- Perform an operation for a caller who looks at the subscriptions whenever it has changed
them. -/
def consult (cache : Cache) (call : Call) : Except Failure Answer × Cache :=
  let (answer, after) := cache.perform call
  (match call with
    | .subscribe _ | .unsubscribe _ => answer.bind fun _ => (after.perform .subscriptions).1
    | _ => answer, after)

/-- Do so with a sequence of operations: their answers, and the cache after all of them. -/
def performAll (cache : Cache) : List Call → List (Except Failure Answer) × Cache
  | [] => ([], cache)
  | call :: rest =>
      let (answer, after) := cache.consult call
      let (answers, last) := after.performAll rest
      (answer :: answers, last)

end Cache

end BlockWatch
