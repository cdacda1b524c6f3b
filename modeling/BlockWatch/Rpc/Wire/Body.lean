import BlockWatch.Hex
import BlockWatch.Rpc.Wire.Head
import BlockWatch.Text.Pieces

/-!
# The body of a response

Normative source: SPEC_FULL.md, section 1, which leaves "the wire-level JSON-RPC transport" to a
collaborator; the rules here are the documented ones of that transport.

How far the body of a response extends follows from its head.  Some statuses never bring one.  A
body may come in chunks, each with its length in front of it; the head may tell its length; and
otherwise everything up to the end of the connection belongs to it.  Lengths that contradict each
other make the head invalid, and a body that ends early is cut off.
-/

set_option autoImplicit false

namespace BlockWatch.Rpc

/-- What arrives for a request. -/
inductive Arrival where
  /-- no response -/
  | nothing
  /-- a response whose body does not come to its end -/
  | cut
  /-- a response with its body -/
  | body (bytes : List UInt8)
  deriving DecidableEq, Repr, Inhabited

namespace Wire

/-! ## Extents -/

/-- How far a body extends. -/
inductive Extent where
  | sized (size : Nat)
  | chunks
  /-- to the end of the connection -/
  | all
  deriving DecidableEq, Repr, Inhabited

/-- The status by which a node changes to another way of talking. -/
def switching : Nat := 101

/-- Whether a response with this status only announces another one. -/
def isInterim (code : Nat) : Bool := 100 ≤ code && code < 200 && code ≠ switching

/-- Whether responses with this status never bring a body. -/
def isBare (code : Nat) : Bool := [switching, 204, 304].contains code

/-- Whether chunks are the last thing that was done to a body. -/
def isChunked (encoding : List Char) : Bool :=
  encoding.all (·.toNat < 0x80) &&
    ((Text.pieces (· = ',') encoding).getLast?.map fun last =>
      String.ofList ((trim last).map Char.toLower)) = some "chunked"

/-- The largest length that a head can tell. -/
def maxLength : Nat := 0xfffffffffffffffd

/-- The length that a head tells, which it may tell more than once. -/
def readLength? (values : List (List Char)) : Option Nat := do
  let told ← (values.flatMap (Text.pieces (· = ','))).mapM (readDecimal? ∘ trim)
  let length ← told.head?
  if told.all (· = length) ∧ length ≤ maxLength then some length else none

/-- How far the body after a head extends; there is none after a head that contradicts itself. -/
def Head.extent? (head : Head) : Option Extent :=
  if isBare head.status.code then some (.sized 0)
  else
    match (head.values "transfer-encoding").getLast? with
    | some encoding =>
        if head.status.isCurrent then some (if isChunked encoding then .chunks else .all) else none
    | none =>
        match head.values "content-length" with
        | [] => some .all
        | values => (readLength? values).map .sized

/-! ## Chunks -/

/-- The value of a byte as a hexadecimal digit. -/
def hexValue? (byte : UInt8) : Option Nat := Hex.value? (Char.ofNat byte.toNat)

/-- The bytes without what a semicolon adds to a line. -/
def skipExtension : List UInt8 → List UInt8
  | 0x3b :: rest => rest.dropWhile fun byte => byte ≠ 0x0d && byte ≠ 0x0a
  | bytes => bytes

/-- The bytes without what follows the length in the line of a chunk. -/
def skipAddition (bytes : List UInt8) : List UInt8 :=
  skipExtension (bytes.dropWhile fun byte => byte = 0x20 || byte = 0x09)

/-- The line in front of a chunk, which tells its length, and the bytes after it. -/
def readSize? (bytes : List UInt8) : Option (Nat × List UInt8) :=
  let digits := (bytes.takeWhile (hexValue? · |>.isSome)).filterMap hexValue?
  match skipAddition (bytes.dropWhile (hexValue? · |>.isSome)) with
  | 0x0d :: 0x0a :: rest =>
      if digits.isEmpty then none else some (digits.foldl (fun n digit => 16 * n + digit) 0, rest)
  | _ => none

theorem length_skipAddition_le (bytes : List UInt8) :
    (skipAddition bytes).length ≤ bytes.length := by
  have skipped (l : List UInt8) : (skipExtension l).length ≤ l.length := by
    unfold skipExtension
    split
    · exact Nat.le_trans (List.dropWhile_sublist _).length_le (Nat.le_succ _)
    · exact Nat.le_refl _
  exact Nat.le_trans (skipped _) (List.dropWhile_sublist _).length_le

/-- The line in front of a chunk takes at least one byte. -/
theorem length_of_readSize? {bytes rest : List UInt8} {size : Nat}
    (h : readSize? bytes = some (size, rest)) : rest.length < bytes.length := by
  have dropped := (List.dropWhile_sublist (l := bytes) (hexValue? · |>.isSome)).length_le
  have skipped := length_skipAddition_le (bytes.dropWhile (hexValue? · |>.isSome))
  unfold readSize? at h
  dsimp only at h
  split at h
  · split at h
    · simp at h
    · grind
  · simp at h

/-- Whether the lines after the last chunk come to their end, which is an empty line. -/
def hasEnd (atStart : Bool) : List UInt8 → Bool
  | 0x0d :: 0x0a :: rest => atStart || hasEnd true rest
  | 0x0d :: _ | [] => false
  | _ :: rest => hasEnd false rest

/-- The contents of chunks in a row, of which the last one is empty. -/
def joinChunks? (bytes : List UInt8) : Option (List UInt8) :=
  match _ : readSize? bytes with
  | none => none
  | some (0, rest) => if hasEnd true rest then some [] else none
  | some (size + 1, rest) =>
      match _ : rest.drop (size + 1) with
      | 0x0d :: 0x0a :: after => (joinChunks? after).map (rest.take (size + 1) ++ ·)
      | _ => none
termination_by bytes.length
decreasing_by
  have := length_of_readSize? ‹readSize? bytes = _›
  have := congrArg List.length ‹rest.drop _ = _›
  grind

/-- Two chunks and an empty one. -/
example :
    joinChunks? "1;a\r\nx\r\n02 \r\nyz\r\n0\r\n\r\n".toUTF8.toList =
      some [0x78, 0x79, 0x7a] := by
  decide +kernel

/-! ## Bodies -/

/-- The body at the start of some bytes, which are all that is left on the connection. -/
def Extent.cutOut : Extent → List UInt8 → Arrival
  | .sized size, bytes => if size ≤ bytes.length then .body (bytes.take size) else .cut
  | .chunks, bytes => ((joinChunks? bytes).map .body).getD .cut
  | .all, bytes => .body bytes

end Wire

end BlockWatch.Rpc
