import BlockWatch.Failure
import BlockWatch.Json.Parser
import BlockWatch.Payload.Reader
import BlockWatch.Rpc.Ask
import BlockWatch.Rpc.Wire

/-!
# The client of a node

Normative source: SPEC_FULL.md, section 10.5:

    Envelope handling: monotonically increasing request id; response id must match (mismatch is an
    error); a JSON-RPC `error` member is an error; a `null` result for a block/transaction is an
    error ("not available yet").

The client of module `rpc`, without the transport.  `Client.new` refuses an empty endpoint.
`Client.request` numbers the requests from one on, and a number is used up whatever becomes of the
request; after the largest 64-bit number comes zero.  What came back for a request, if anything did,
is judged by `Request.accept`: the arrival of the response, the JSON text, the envelope
(`resultFor`) and then the typed answer (`readAnswer`), in this order, each with its own error text.

A `Response` is a status and the bytes after the head.  How these bytes become the body is in
`Rpc.Wire`; where a request goes is in `Rpc.Endpoint`.
-/

set_option autoImplicit false

namespace BlockWatch.Rpc

/-! ## Requests -/

/-- A numbered question; the numbers have 64 bits. -/
structure Request where
  id : UInt64
  ask : Ask
  deriving DecidableEq, Repr, Inhabited

/-- The kind of text that requests are. -/
def contentType : String := "application/json"

/-- A request as a JSON value. -/
def Request.toJson (request : Request) : Json :=
  .ofMembers
    [("jsonrpc", .string "2.0"), ("id", .int request.id.toNat),
     ("method", .string request.ask.method), ("params", .array request.ask.parameters)]

/-- The text of a request. -/
def Request.text (request : Request) : String := request.toJson.text

/-- The first line of a request to a target. -/
def startLine (target : String) : String := "POST " ++ target ++ " HTTP/1.1"

/-! ## Responses -/

/-- What a node sent back: a status, and the bytes after the head. -/
structure Response where
  status : Nat := 200
  body : List UInt8
  deriving Repr, Inhabited

/-- What arrives of a response.  A number that has not three digits is no status, and after a
response that only announces another one its bytes go on with that one. -/
def Response.arrival (response : Response) : Arrival :=
  if response.status < 100 ∨ 999 < response.status then .nothing
  else if Wire.isInterim response.status then Wire.read response.body
  else if Wire.isBare response.status then .body []
  else .body response.body

/-- The JSON value in a body. -/
def readBody? (bytes : List UInt8) : Option Json :=
  (String.fromUTF8? ⟨bytes.toArray⟩).bind Json.parse?

/-- How a message calls the number that a response carries. -/
def describeId : Option Nat → String
  | some id => "Some(" ++ toString id ++ ")"
  | none => "None"

/-- The result in a response to the request with number `id`.  A member `error`, whatever its
value, and a wrong number each make it fail. -/
def resultFor (id : Nat) (envelope : Json) : Except Explanation Json :=
  match envelope.member? "error" with
  | some error => .error ⟨"RPC error: " ++ error.text, []⟩
  | none =>
      let got := (envelope.member? "id").bind Json.natural?
      if got = some id then
        match envelope.member? "result" with
        | some result => .ok result
        | none => .error ⟨"RPC response missing 'result' field", []⟩
      else .error ⟨"id mismatch: got " ++ describeId got ++ ", want " ++ toString id, []⟩

/-- The answer in the result of a question. -/
def readAnswer : (ask : Ask) → Json → Except Explanation ask.Answer
  | .head, .string number => .ok number
  | .head, _ => .error ⟨"Block number response is not a string", []⟩
  | .block number, .null => .error ⟨"Block " ++ number ++ " not available", []⟩
  | .block _, result =>
      match Block.ofJson result with
      | .ok block => .ok block
      | .error misfit => .error ⟨"Failed to deserialize block", [misfit.message]⟩
  | .transaction hash, .null => .error ⟨"Transaction " ++ hash ++ " not available", []⟩
  | .transaction _, result =>
      match Transaction.ofJson result with
      | .ok transaction => .ok transaction
      | .error misfit => .error ⟨"Failed to deserialize transaction", [misfit.message]⟩

/-- Why a question for which no response arrived has no answer. -/
def notSent (ask : Ask) : Explanation := ⟨"Failed to send " ++ ask.method ++ " request", []⟩

/-- Why a response without a JSON value is no answer. -/
def notParsed (ask : Ask) : Explanation := ⟨"Failed to parse " ++ ask.method ++ " response", []⟩

/-- The answer in the body of the response to a request. -/
def Request.acceptBody (request : Request) (bytes : List UInt8) :
    Except Explanation request.ask.Answer :=
  match readBody? bytes with
  | none => .error (notParsed request.ask)
  | some envelope =>
      match resultFor request.id.toNat envelope with
      | .error explanation => .error explanation
      | .ok result => readAnswer request.ask result

/-- Judge what came back for a request; nothing came back where the node was not reached or did
not answer. -/
def Request.accept (request : Request) (received : Option Response) :
    Except Explanation request.ask.Answer :=
  match (received.map Response.arrival).getD .nothing with
  | .nothing => .error (notSent request.ask)
  | .cut => .error (notParsed request.ask)
  | .body bytes => request.acceptBody bytes

/-! ## Clients -/

/-- A client: the URL of its node, and the number of its next request; after the largest number
comes zero. -/
structure Client where
  endpoint : String
  nextId : UInt64 := 1
  deriving DecidableEq, Repr, Inhabited

namespace Client

/-- A client for a URL; there has to be one. -/
def new (endpoint : String) : Except Failure Client :=
  if endpoint.isEmpty then .error (.missingField "rpc_endpoint") else .ok { endpoint }

/-- The next request; it uses up its number whatever becomes of it. -/
def request (client : Client) (ask : Ask) : Request × Client :=
  (⟨client.nextId, ask⟩, { client with nextId := client.nextId + 1 })

/-- Ask a question: the answer in what comes back, and the client after it. -/
def call (client : Client) (ask : Ask) (response : Option Response) :
    Except Explanation ask.Answer × Client :=
  (Request.accept ⟨client.nextId, ask⟩ response, (client.request ask).2)

end Client

end BlockWatch.Rpc
