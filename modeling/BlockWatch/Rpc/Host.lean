import BlockWatch.Hex
import BlockWatch.Text.Pieces
import BlockWatch.Text.Plain

/-!
# Hosts

Normative source: SPEC_FULL.md, section 6, "an RPC endpoint identifier (opaque to the core)".

The host in a web address is an address of version four, an address of version six in square
brackets, or a name.  A host is read without regard to case and to percent escapes, and variants of
letters and digits count as the plain ones (`Text.Plain`).  What ends in a number has to be an
address of version four: one to four numbers, decimal, octal after a `0` or hexadecimal after `0x`,
of which the last one fills all bytes that are left.  A text with a character that no host has is no
host.
-/

set_option autoImplicit false

namespace BlockWatch

/-- A host. -/
inductive Host where
  /-- an address of version four as one number of 32 bits -/
  | v4 (address : Nat)
  /-- an address of version six as eight groups of 16 bits -/
  | v6 (groups : List Nat)
  | name (text : String)
  deriving DecidableEq, Repr, Inhabited

namespace Host

/-! ## Numbers -/

/-- The number that digits of a base stand for; without digits it is zero. -/
def readInBase? (base : Nat) (digits : List Char) : Option Nat :=
  digits.foldlM
    (fun n c => (Hex.value? c).bind fun digit =>
      if digit < base then some (base * n + digit) else none)
    0

/-- The number that a part of an address of version four stands for. -/
def readPart? : List Char → Option Nat
  | [] => none
  | '0' :: 'x' :: digits => readInBase? 16 digits
  | '0' :: d :: digits => readInBase? 8 (d :: digits)
  | digits => readInBase? 10 digits

/-! ## Version four -/

/-- The parts between dots; a dot at the end separates nothing. -/
def parts (text : List Char) : List (List Char) :=
  let pieces := Text.pieces (· = '.') text
  if pieces.getLast? = some [] then pieces.dropLast else pieces

/-- Whether a text ends in a number, as only addresses of version four do. -/
def endsInNumber (text : List Char) : Bool :=
  match (parts text).getLast? with
  | none => false
  | some part => (!part.isEmpty && part.all Char.isDigit) || (readPart? part).isSome

/-- Read an address of version four. -/
def readV4? (text : List Char) : Option Nat := do
  let numbers ← (parts text).mapM readPart?
  let last ← numbers.getLast?
  let bytes := numbers.dropLast
  if bytes.length ≤ 3 ∧ bytes.all (· ≤ 0xff) ∧ last ≤ 0xffffffff >>> (8 * bytes.length) then
    let front := bytes.foldl (fun n byte => 0x100 * n + byte) 0
    some (front <<< (8 * (4 - bytes.length)) + last)
  else none

/-! ## Version six -/

/-- One group: one to four hexadecimal digits. -/
def readGroup? (text : List Char) : Option Nat :=
  if text.isEmpty ∨ 4 < text.length then none else readInBase? 16 text

/-- One decimal byte without leading zeros. -/
def readByte? (text : List Char) : Option Nat :=
  match text with
  | [] | '0' :: _ :: _ => none
  | digits => (readInBase? 10 digits).filter (· ≤ 0xff)

/-- Two groups in the form of an address of version four. -/
def readQuad? (text : List Char) : Option (List Nat) :=
  match (Text.pieces (· = '.') text).mapM readByte? with
  | some [a, b, c, d] => some [0x100 * a + b, 0x100 * c + d]
  | _ => none

/-- Groups between colons; the last one may be written like an address of version four. -/
def readGroups? : List (List Char) → Option (List Nat)
  | [] => some []
  | [piece] =>
      if piece.contains '.' then readQuad? piece else (readGroup? piece).map fun group => [group]
  | piece :: rest => do
      let group ← readGroup? piece
      let groups ← readGroups? rest
      pure (group :: groups)

/-- The groups in a part of an address, which may be empty. -/
def readSide? (text : List Char) : Option (List Nat) :=
  if text.isEmpty then some [] else readGroups? (Text.pieces (· = ':') text)

/-- The texts before and after the first two colons in a row. -/
def splitAtGap? : List Char → Option (List Char × List Char)
  | ':' :: ':' :: rest => some ([], rest)
  | c :: rest => (splitAtGap? rest).map fun (before, after) => (c :: before, after)
  | [] => none

/-- Read an address of version six: eight groups, or fewer with one gap, which is filled with
zeros. -/
def readV6? (text : List Char) : Option (List Nat) :=
  match splitAtGap? text with
  | none => (readGroups? (Text.pieces (· = ':') text)).filter (·.length = 8)
  | some (before, after) => do
      let front ← if before.contains '.' then none else readSide? before
      let back ← readSide? after
      let given := front.length + back.length
      if given < 8 then some (front ++ List.replicate (8 - given) 0 ++ back) else none

/-! ## Any host -/

/-- The bytes of a text in which percent escapes stand for bytes. -/
def unescape : List UInt8 → List UInt8
  | 0x25 :: a :: b :: rest =>
      match Hex.value? (Char.ofNat a.toNat), Hex.value? (Char.ofNat b.toNat) with
      | some high, some low => UInt8.ofNat (16 * high + low) :: unescape rest
      | _, _ => 0x25 :: unescape (a :: b :: rest)
  | byte :: rest => byte :: unescape rest
  | [] => []

/-- The characters that separate the parts of a name like a dot does. -/
def dots : List Char := ['\u3002', '\uff0e', '\uff61']

/-- The closed ranges of code points that are left out of a name, ascending: what breaks lines,
joins, fills a place or selects a variant without being seen. -/
def silentRanges : List (Nat × Nat) :=
  [(0xad, 0xad), (0x34f, 0x34f), (0x115f, 0x1160), (0x17b4, 0x17b5), (0x180b, 0x180f),
   (0x200b, 0x200b), (0x2060, 0x2064), (0x206a, 0x206f), (0x3164, 0x3164), (0xfe00, 0xfe0f),
   (0xfeff, 0xfeff), (0xffa0, 0xffa0), (0x1bca0, 0x1bca3), (0x1d173, 0x1d17a),
   (0xe0100, 0xe01ef)]

/-- Whether a character is left out of a name. -/
def isSilent (c : Char) : Bool :=
  silentRanges.any fun range => range.1 ≤ c.toNat && c.toNat ≤ range.2

/-- What a character in a name counts as. -/
def fold (c : Char) : List Char :=
  if isSilent c then [] else if dots.contains c then ['.'] else Text.plain c

/-- Whether a character cannot be part of a name. -/
def isForbidden (c : Char) : Bool :=
  c.toNat ≤ 0x20 || c.toNat = 0x7f || "#%/:<>?@[\\]^|".toList.contains c

/-- Read a host that is not in brackets. -/
def readOpen? (text : List Char) : Option Host := do
  let decoded ← String.fromUTF8? ⟨(unescape (String.ofList text).toUTF8.toList).toArray⟩
  let folded := decoded.toList.flatMap fold
  if folded.isEmpty || folded.any isForbidden then none
  else if endsInNumber folded then (readV4? folded).map .v4
  else some (.name (String.ofList folded))

/-- Read a host. -/
def ofText? : List Char → Option Host
  | '[' :: rest =>
      if rest.getLast? = some ']' then (readV6? rest.dropLast).map .v6 else none
  | text => readOpen? text

end Host

end BlockWatch
