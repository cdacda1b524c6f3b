import BlockWatch.Rpc.Client
import BlockWatch.Rpc.Endpoint

/-!
# Rehearsals

Normative source: SPEC_FULL.md, section 10.8, on tests of the client.

A client can be tried out on a server that does what it is told to (`Service`).  The server stands
at every address of version four and at the name that a machine has for itself, always at the same
port; a client whose endpoint is elsewhere reaches nothing.  `Service.exchanges` asks one question
after another and keeps for each the request that went out, if one did, and its result.

`Proofs.Rpc.Conversation` relates rehearsals to conversations of the client with any responses.
-/

set_option autoImplicit false

namespace BlockWatch.Rpc

/-- What the server does when it is asked something. -/
inductive Service where
  /-- it is not there -/
  | absent
  /-- it takes the request and hangs up -/
  | hangsUp
  | responds (response : Response)
  deriving Repr, Inhabited

/-- What becomes of one question. -/
structure Exchange where
  ask : Ask
  /-- the request that reaches the server, and the target in its first line -/
  request : Option (String × Request)
  result : Except Explanation ask.Answer

namespace Service

/-- The port of the server. -/
def port : Nat := 8545

/-- Whether the server stands at an endpoint. -/
def standsAt (endpoint : Endpoint) : Bool :=
  endpoint.port = port &&
    match endpoint.host with
    | .v4 _ => true
    | .v6 _ => false
    | .name text => text = "localhost"

/-- Where a client reaches the server, if the server is there. -/
def reachedBy? (client : Client) : Service → Option Endpoint
  | .absent => none
  | _ => (Endpoint.ofText? client.endpoint).filter standsAt

/-- What the server sends back. -/
def response? : Service → Option Response
  | .responds response => some response
  | _ => none

/-- Ask the server a question. -/
def exchange (service : Service) (client : Client) (ask : Ask) : Exchange × Client :=
  let endpoint := service.reachedBy? client
  let (result, after) := client.call ask (endpoint.bind fun _ => service.response?)
  ({ ask, request := endpoint.map fun place => (place.target, (client.request ask).1), result },
    after)

/-- Ask one question after another, each with what the server does then. -/
def exchanges (client : Client) : List (Ask × Service) → List Exchange
  | [] => []
  | (ask, service) :: rest =>
      let (exchange, after) := service.exchange client ask
      exchange :: exchanges after rest

end Service

end BlockWatch.Rpc
