import BlockWatch.Node
import BlockWatch.Table
import BlockWatch.Timer

/-!
# Scripted nodes

Normative source: SPEC_FULL.md, section 10.8:

    Watcher tests use an in-test mock `RpcClient` (configurable head, blocks, transactions, failing
    hashes, call counter) and `ChannelNotifier` to observe fan-out.

A node for rehearsals that answers from a script: the blocks and transactions it knows, what it
fails at, how long it takes, and which transaction tasks panic.  Heads come from a queue as long as
that has any.  A script is changed by updates, which can happen at any time of a run
(`Action.node`).
-/

set_option autoImplicit false

namespace BlockWatch

/-- What a scripted node says. -/
structure Script where
  /-- the head when the queue is empty; there may be none -/
  head : Option String := none
  /-- the heads that come first, one for each question -/
  queue : List (Option String) := []
  blocks : Table Block := ⟨[]⟩
  /-- transactions by the hash that is asked for -/
  transactions : Table Transaction := ⟨[]⟩
  /-- the blocks for which it fails -/
  failingBlocks : List String := []
  /-- the transactions for which it fails -/
  failingTransactions : List String := []
  /-- the transactions whose task crashes -/
  crashing : List String := []
  /-- how long questions take, where they take any time -/
  latency : Table Nat := ⟨[]⟩
  deriving Repr, Inhabited

namespace Script

/-- A change of a script.  Queue and tables are added to, everything else is replaced. -/
structure Update where
  head : Option (Option String) := none
  queue : List (Option String) := []
  blocks : Table Block := ⟨[]⟩
  transactions : Table Transaction := ⟨[]⟩
  failingBlocks : Option (List String) := none
  failingTransactions : Option (List String) := none
  crashing : Option (List String) := none
  latency : Table Nat := ⟨[]⟩
  deriving Repr, Inhabited

/-- Change a script. -/
def apply (update : Update) (script : Script) : Script where
  head := update.head.getD script.head
  queue := script.queue ++ update.queue
  blocks := script.blocks.merge update.blocks
  transactions := script.transactions.merge update.transactions
  failingBlocks := update.failingBlocks.getD script.failingBlocks
  failingTransactions := update.failingTransactions.getD script.failingTransactions
  crashing := update.crashing.getD script.crashing
  latency := script.latency.merge update.latency

/-- The key under which a script has the latency of a question. -/
def latencyKey : Ask → String
  | .head => "head"
  | .block number => number
  | .transaction hash => hash

/-- The head that comes next, and the script without it. -/
def nextHead (script : Script) : Option String × Script :=
  match script.queue with
  | head :: rest => (head, { script with queue := rest })
  | [] => (script.head, script)

/-- The answer for a key from a table, unless the script fails at it. -/
def look {α : Type} (kind : String) (failing : List String) (known : Table α) (key : String) :
    Except Explanation α :=
  if failing.contains key then .error ⟨"mock failure for " ++ key, []⟩
  else
    match known.find? key with
    | some value => .ok value
    | none => .error ⟨"mock has no " ++ kind ++ " " ++ key, []⟩

/-- What a scripted node answers. -/
def answer : (ask : Ask) → Script → Except Explanation ask.Answer × Script
  | .head, script =>
      match script.nextHead with
      | (some head, rest) => (.ok head, rest)
      | (none, rest) => (.error ⟨"mock head unavailable", []⟩, rest)
  | .block number, script => (look "block" script.failingBlocks script.blocks number, script)
  | .transaction hash, script =>
      (look "tx" script.failingTransactions script.transactions hash, script)

/-- The node that answers from a script. -/
def node : Node Script Update where
  update := apply
  latency script ask := Timer.span ((script.latency.find? (latencyKey ask)).getD 0)
  answer := answer
  crashes script hash := script.crashing.contains hash

end Script

end BlockWatch
