import BlockWatch.Rpc.Endpoint
import BlockWatch.Rpc.Wire.Body

/-!
# Responses on a connection

Normative source: SPEC_FULL.md, section 1, which leaves "the wire-level JSON-RPC transport" to a
collaborator; the rules here are the documented ones of that transport.

A connection brings one response after another.  Those that only announce another one are passed
over, and the first one that does not is the answer.  `Wire.read` gives its body, or says that
nothing arrived or that the body was cut off.
-/

set_option autoImplicit false

namespace BlockWatch.Rpc.Wire

/-- The text of a value, whose characters are its bytes. -/
def textOf? (value : List Char) : Option String :=
  String.fromUTF8? ⟨(value.map fun c => UInt8.ofNat c.toNat).toArray⟩

/-- Whether a response sends the one who asks to another place.  Nobody answers there. -/
def Head.leadsAway (head : Head) : Bool :=
  [301, 302, 303, 307, 308].contains head.status.code &&
    ((head.values "location").head?.bind textOf?).any Endpoint.isReference

/-- What arrives with the bytes of a connection. -/
def read (bytes : List UInt8) : Arrival :=
  match _ : readHead? bytes with
  | none => .nothing
  | some (head, rest) =>
      if isInterim head.status.code then read rest
      else if head.leadsAway then .nothing
      else (head.extent?.map (·.cutOut rest)).getD .nothing
termination_by bytes.length
decreasing_by exact length_of_readHead? ‹_›

/-- An announcement is passed over. -/
example : read "HTTP/1.1 103 Early\r\n\r\nHTTP/1.0 200\n\nx".toUTF8.toList = .body [0x78] := by
  decide +kernel

/-- A body that is shorter than its head tells is cut off. -/
example : read "HTTP/1.1 200 OK\r\nContent-Length: 2\r\n\r\nx".toUTF8.toList = .cut := by
  decide +kernel

end BlockWatch.Rpc.Wire
