import BlockWatch.Rpc.Host

/-!
# Endpoints

Normative source: SPEC_FULL.md, section 6, "an RPC endpoint identifier (opaque to the core)".

The endpoint is a URL.  `Endpoint.ofText?` takes from it what the client needs: the host, the port,
and the target that requests name in their first line.  The target is the path without dot segments
and the query, with every character that cannot stand in a request line written as the percent
escapes of its bytes.  The rules are the documented ones for web addresses: any number of slashes,
user names up to the last `@`, a default port for the scheme, and drive letters that two dots do not
leave.  Found at an endpoint, a text that leaves parts of a URL out refers to another place.
-/

set_option autoImplicit false

namespace BlockWatch

/-- What a client needs of the address of its node. -/
structure Endpoint where
  host : Host
  port : Nat
  target : String
  deriving DecidableEq, Repr, Inhabited

namespace Endpoint

/-! ## Percent escapes -/

/-- The upper-case digit of a value below sixteen. -/
def upperDigit (value : Nat) : Char := (Hex.digit value).toUpper

/-- The escape of one byte. -/
def escapeByte (byte : UInt8) : List Char :=
  ['%', upperDigit (byte.toNat / 16), upperDigit (byte.toNat % 16)]

/-- A text in which the characters of a set, controls and everything outside ASCII are
escaped. -/
def escapeSet (set : List Char) (text : List Char) : List Char :=
  text.flatMap fun c =>
    if c.toNat < 0x20 ∨ 0x7e < c.toNat ∨ set.contains c then
      (String.ofList [c]).toUTF8.toList.flatMap escapeByte
    else [c]

/-- The characters that are escaped in a path. -/
def pathSet : List Char := [' ', '"', '#', '<', '>', '?', '\u0060', '\x7b', '\x7d']

/-- The characters that are escaped in a query. -/
def querySet : List Char := [' ', '"', '#', '<', '>', '\'']

/-! ## Paths -/

/-- Whether a character is a slash; a backslash counts as one. -/
def isSlash (c : Char) : Bool := c = '/' || c = '\\'

/-- The segments of a path. -/
def segments (path : List Char) : List (List Char) := Text.pieces isSlash path

/-- A segment with escaped dots written as dots. -/
def plainDots : List Char → List Char
  | '%' :: '2' :: 'e' :: rest | '%' :: '2' :: 'E' :: rest => '.' :: plainDots rest
  | c :: rest => c :: plainDots rest
  | [] => []

/-- Whether a segment is the letter of a drive, which two dots do not leave. -/
def isDrive : List Char → Bool
  | [letter, mark] => letter.isAlpha && (mark = ':' || mark = '|')
  | _ => false

/-- The segments that two dots lead back to. -/
def back : List (List Char) → List (List Char)
  | [] => []
  | segment :: rest => if isDrive segment then segment :: rest else rest

/-- The segments after dot segments are followed, newest first in `walked`: one dot stays, two
dots go back, and either at the end leaves an empty segment. -/
def walk (walked : List (List Char)) : List (List Char) → List (List Char)
  | [] => walked.reverse
  | segment :: rest =>
      let last := rest.isEmpty
      if plainDots segment = ['.', '.'] then
        walk (if last then [] :: back walked else back walked) rest
      else if plainDots segment = ['.'] then walk (if last then [] :: walked else walked) rest
      else walk (segment :: walked) rest

/-- The text of a path from the characters between the authority and the query. -/
def pathText (path : List Char) : List Char :=
  let rooted := match path with
    | c :: rest => if isSlash c then rest else path
    | [] => []
  '/' :: List.intercalate ['/'] ((walk [] (segments rooted)).map (escapeSet pathSet))

/-! ## Web addresses -/

/-- A text without controls and spaces around it, and without tabs and line breaks inside. -/
def cleaned (url : List Char) : List Char :=
  let isEdge (c : Char) : Bool := c.toNat ≤ 0x20
  let trimmed := (((url.dropWhile isEdge).reverse).dropWhile isEdge).reverse
  trimmed.filter fun c => !(c = '\t' || c = '\n' || c = '\r')

/-- Whether a character can stand in a scheme. -/
def isSchemeChar (c : Char) : Bool := c.isAlphanum || c = '+' || c = '-' || c = '.'

/-- The scheme of a web address in small letters, and what follows its colon. -/
def splitScheme? (url : List Char) : Option (String × List Char) :=
  match url.dropWhile isSchemeChar with
  | ':' :: rest =>
      if url.head?.any Char.isAlpha then
        some (String.ofList ((url.takeWhile isSchemeChar).map Char.toLower), rest)
      else none
  | _ => none

/-- Whether a character ends the authority of a web address. -/
def endsAuthority (c : Char) : Bool := isSlash c || c = '?' || c = '#'

/-- The host of an authority and what follows it; a colon in brackets belongs to the host. -/
def splitHost (inside : Bool) : List Char → List Char × List Char
  | [] => ([], [])
  | c :: rest =>
      if c = ':' && !inside then ([], c :: rest)
      else
        let (host, after) := splitHost (if c = '[' then true else inside && c ≠ ']') rest
        (c :: host, after)

/-- The largest port. -/
def maxPort : Nat := 0xffff

/-- The port of an address that names none. -/
def defaultPort : Nat := 80

/-- The port after a host: a colon and digits, which may both be left out. -/
def readPort? : List Char → Option Nat
  | [] | [':'] => some defaultPort
  | ':' :: digits => (Host.readInBase? 10 digits).filter (· ≤ maxPort)
  | _ => none

/-- The host and the port at the start of what follows the slashes of a web address; the name of a
user in front of them does not count. -/
def readPlace? (rest : List Char) : Option (Host × Nat) := do
  let authority := rest.takeWhile (!endsAuthority ·)
  let place := ((authority.reverse).takeWhile (· ≠ '@')).reverse
  let (hostText, portText) := splitHost false place
  pure (← Host.ofText? hostText, ← readPort? portText)

/-- The target in what follows the slashes of a web address. -/
def targetText (rest : List Char) : List Char :=
  let located := (rest.dropWhile (!endsAuthority ·)).takeWhile (· ≠ '#')
  let query := match located.dropWhile (· ≠ '?') with
    | _ :: query => '?' :: escapeSet querySet query
    | [] => []
  pathText (located.takeWhile (· ≠ '?')) ++ query

/-- Read a web address that asks for no encryption. -/
def ofText? (url : String) : Option Endpoint :=
  match splitScheme? (cleaned url.toList) with
  | some ("http", rest) =>
      let located := rest.dropWhile isSlash
      (readPlace? located).map fun (host, port) =>
        { host, port, target := String.ofList (targetText located) }
  | _ => none

/-! ## References -/

/-- The schemes whose addresses name a host. -/
def hostedSchemes : List String := ["http", "https", "ws", "wss", "ftp"]

/-- Whether a text starts with two slashes. -/
def isDoubled (text : List Char) : Bool := (text.take 2).length = 2 && (text.take 2).all isSlash

/-- Whether a text leads somewhere when it is found at an endpoint.  A scheme, or a host too, that
it does not name is that of the endpoint; a host that it names has to be readable. -/
def isReference (text : String) : Bool :=
  let url := cleaned text.toList
  match splitScheme? url with
  | some (scheme, rest) =>
      (scheme = "http" && !isDoubled rest) || !hostedSchemes.contains scheme ||
        (readPlace? (rest.dropWhile isSlash)).isSome
  | none =>
      match url with
      | '/' :: '/' :: rest => (readPlace? rest).isSome
      | _ => !isDoubled url || (readPlace? (url.dropWhile isSlash)).isSome

end Endpoint

end BlockWatch
