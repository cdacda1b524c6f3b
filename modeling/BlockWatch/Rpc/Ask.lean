import BlockWatch.Failure
import BlockWatch.Payload

/-!
# Questions to a node

Normative source: SPEC_FULL.md, section 10.5:

    Methods: `eth_blockNumber`, `eth_getBlockByNumber [number, false]`, `eth_getTransactionByHash
    [hash]`.

The three questions that a watcher asks, with the method and the parameters of each, the type of its
answer, and the failure that a question becomes.  A failure names the method, and for a transaction
also the hash (`Ask.failure`).
-/

set_option autoImplicit false

namespace BlockWatch

/-- A question to a node. -/
inductive Ask where
  /-- which block is the newest -/
  | head
  /-- what is in the block with this number -/
  | block (number : String)
  /-- what is the transaction with this hash -/
  | transaction (hash : String)
  deriving DecidableEq, Repr, Inhabited

namespace Ask

/-- What answers a question. -/
abbrev Answer : Ask → Type
  | .head => String
  | .block _ => Block
  | .transaction _ => Transaction

/-- The name of the method that asks a question. -/
def method : Ask → String
  | .head => "eth_blockNumber"
  | .block _ => "eth_getBlockByNumber"
  | .transaction _ => "eth_getTransactionByHash"

/-- The parameters of a question; a block is asked for without its transactions in full. -/
def parameters : Ask → List Json
  | .head => []
  | .block number => [.string number, .bool false]
  | .transaction hash => [.string hash]

/-- The failure of a question: it names the method, and for a transaction also the hash. -/
def failure (ask : Ask) (explanation : Explanation) : Failure :=
  match ask with
  | .transaction hash => .rpc ask.method (explanation.within ("hash=" ++ hash))
  | _ => .rpc ask.method explanation

end Ask

end BlockWatch
