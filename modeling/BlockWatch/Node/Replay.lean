import BlockWatch.Node
import BlockWatch.Rpc.Client

/-!
# Replayed nodes

Normative source: SPEC_FULL.md, section 10.5, on the client behind a node:

    Envelope handling: monotonically increasing request id; response id must match (mismatch is an
    error)

A node that is really somewhere else answers only after it was asked, and work that is a function
cannot wait.  So the work is done again from its start each time another response has come in.
`Replay.node` answers the questions of the work with the responses so far, in their order, each
through the client that numbers the requests (`Rpc.Client.call`).  The first question for which
there is no response is the one to send next, and work that finds a response for each of its
questions is done.

A question without a response is answered with a failure (`Replay.notYet`).  What the work does
after that is not used: the program looks at its first question without a response only.
-/

set_option autoImplicit false

namespace BlockWatch

/-- A client, and what came back for the requests that it is going to make. -/
structure Replay where
  client : Rpc.Client
  /-- what came back, in the order of the requests -/
  responses : List (Option Rpc.Response)
  deriving Repr, Inhabited

namespace Replay

/-- Why a question without a response has no answer yet. -/
def notYet : Explanation := ⟨"not asked yet", []⟩

/-- Answer a question with the next response. -/
def answer (ask : Ask) (replay : Replay) : Except Explanation ask.Answer × Replay :=
  match replay.responses with
  | [] => (.error notYet, replay)
  | response :: rest =>
      let (result, client) := replay.client.call ask response
      (result, { client, responses := rest })

/-- The node that answers with the responses which came back; nothing else happens to it, and its
answers take no time. -/
def node : Node Replay Empty where
  update := nofun
  latency _ _ := 0
  answer := answer
  crashes _ _ := false

end Replay

end BlockWatch
