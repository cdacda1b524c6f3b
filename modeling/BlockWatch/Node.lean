import BlockWatch.Failure
import BlockWatch.Rpc.Ask

/-!
# Nodes

Normative source: SPEC_FULL.md, section 6:

    `RPCClient.GetCurrentBlockNumber() -> BlockNumber | error`
    `RPCClient.GetBlockByNumber(BlockNumber) -> Block{hash, transactionHashes} | error`
    `RPCClient.GetTransactionByHash(hash) -> Transaction | error`

A node is the collaborator behind `RPCClient`, as a parameter of everything that asks it.  How it
answers may depend on everything that happened to it before, so it is given by functions on a state
of its own: how long a question takes when it is asked now, what the answer is when that time is
over, and whether the task that asks for a transaction panics instead (`Node.crashes`).

Panics of other requests are not expressed.  A request for the head or for a block runs in the task
of the caller, and a panic there ends the caller; it is no error that a tick could log.  The panic
of a transaction task is the `Task` error of section 10.2.  Its detail is left out.

A question takes a natural number of milliseconds and always ends.  Section 5 imposes no timeout
beyond what the collaborator enforces, so a request that times out is an answer with an error.
-/

set_option autoImplicit false

namespace BlockWatch

/-- A node with states `σ`, to which updates `υ` can happen. -/
structure Node (σ υ : Type) where
  /-- what an update does -/
  update : υ → σ → σ
  /-- how long a question takes that is asked now, in milliseconds -/
  latency : σ → Ask → Nat
  /-- the answer, or the reason why there is none, and the state after it -/
  answer : (ask : Ask) → σ → Except Explanation ask.Answer × σ
  /-- whether the task that asks for a transaction crashes -/
  crashes : σ → String → Bool

end BlockWatch
