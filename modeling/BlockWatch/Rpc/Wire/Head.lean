/-!
# The head of a response

Normative source: SPEC_FULL.md, section 1, which leaves "the wire-level JSON-RPC transport" to a
collaborator; the rules here are the documented ones of that transport.

A response on a connection starts with a status line and lines for its fields, up to an empty line.
A line ends in a line feed, and a carriage return before that belongs to the end.  A field has a
name, in which case does not count, and a value without blanks around it.  A head with more than one
hundred fields is not read.
-/

set_option autoImplicit false

namespace BlockWatch.Rpc.Wire

/-! ## Lines -/

/-- The first line and the bytes after it; a line that does not end is none. -/
def line? : List UInt8 → Option (List Char × List UInt8)
  | [] => none
  | 0x0a :: rest => some ([], rest)
  | 0x0d :: 0x0a :: rest => some ([], rest)
  | byte :: rest => (line? rest).map fun (line, after) => (Char.ofNat byte.toNat :: line, after)

theorem length_of_line? {bytes rest : List UInt8} {line : List Char}
    (h : line? bytes = some (line, rest)) : rest.length < bytes.length := by
  fun_induction line? bytes generalizing line rest with
  | case1 => simp at h
  | case2 => simp_all
  | case3 => grind
  | case4 byte others _ _ ih =>
    obtain ⟨⟨line', after⟩, hline, hpair⟩ := Option.map_eq_some_iff.1 h
    have := ih hline
    grind

/-- The bytes without the empty lines in front. -/
def skipEmptyLines : List UInt8 → List UInt8
  | 0x0a :: rest => skipEmptyLines rest
  | 0x0d :: 0x0a :: rest => skipEmptyLines rest
  | bytes => bytes

theorem length_skipEmptyLines_le (bytes : List UInt8) :
    (skipEmptyLines bytes).length ≤ bytes.length := by
  fun_induction skipEmptyLines bytes <;> grind

/-- Whether a character can stand in a value: no control but the tab. -/
def isValueChar (c : Char) : Bool := c = '\t' || (' ' ≤ c && c ≠ '\x7f')

/-- Whether a character can stand in a name. -/
def isNameChar (c : Char) : Bool := c.isAlphanum || "!#$%&'*+-.^_\u0060|~".toList.contains c

/-- A text without the spaces and tabs around it. -/
def trim (text : List Char) : List Char :=
  let isEdge (c : Char) : Bool := c = ' ' || c = '\t'
  (((text.dropWhile isEdge).reverse).dropWhile isEdge).reverse

/-! ## Status lines -/

/-- What a status line says. -/
structure Status where
  /-- whether the response is written in version 1.1, and not in version 1.0 -/
  isCurrent : Bool
  code : Nat
  deriving DecidableEq, Repr, Inhabited

/-- The number that decimal digits stand for, if there are any. -/
def readDecimal? (digits : List Char) : Option Nat :=
  if digits.isEmpty then none
  else
    digits.foldlM (fun n c => if c.isDigit then some (10 * n + (c.toNat - '0'.toNat)) else none) 0

/-- What follows the version in a status line: three digits, and a reason that may be left out. -/
def readCode? (text : List Char) : Option Nat :=
  let reason := text.drop 3
  if (text.take 3).length = 3 ∧ (reason.isEmpty ∨ reason.head? = some ' ') ∧
      reason.all isValueChar then
    (readDecimal? (text.take 3)).filter (100 ≤ ·)
  else none

/-- Read a status line. -/
def readStatus? (line : List Char) : Option Status :=
  let start := String.ofList (line.take 9)
  if start = "HTTP/1.1 " then (readCode? (line.drop 9)).map (⟨true, ·⟩)
  else if start = "HTTP/1.0 " then (readCode? (line.drop 9)).map (⟨false, ·⟩)
  else none

/-! ## Fields -/

/-- A field of a head. -/
structure Field where
  /-- the name in small letters -/
  name : String
  /-- the value without the spaces and tabs around it -/
  value : List Char
  deriving DecidableEq, Repr, Inhabited

/-- Read the line of a field. -/
def readField? (line : List Char) : Option Field :=
  let name := line.takeWhile isNameChar
  match line.dropWhile isNameChar with
  | ':' :: value =>
      if !name.isEmpty && value.all isValueChar then
        some ⟨String.ofList (name.map Char.toLower), trim value⟩
      else none
  | _ => none

/-- Read the lines of at most `most` fields, and the empty line after them. -/
def readFields? (most : Nat) (bytes : List UInt8) : Option (List Field × List UInt8) := do
  let (line, rest) ← line? bytes
  if line.isEmpty then some ([], rest)
  else
    match most with
    | 0 => none
    | most + 1 =>
        let field ← readField? line
        let (fields, after) ← readFields? most rest
        some (field :: fields, after)

theorem length_of_readFields? {most : Nat} {bytes rest : List UInt8} {fields : List Field}
    (h : readFields? most bytes = some (fields, rest)) : rest.length < bytes.length := by
  induction most generalizing bytes rest fields with
  | zero =>
    unfold readFields? at h
    obtain ⟨⟨line, after⟩, hline, h⟩ := Option.bind_eq_some_iff.1 h
    have := length_of_line? hline
    grind
  | succ most ih =>
    unfold readFields? at h
    obtain ⟨⟨line, after⟩, hline, h⟩ := Option.bind_eq_some_iff.1 h
    have := length_of_line? hline
    dsimp only at h
    split at h
    · grind
    · obtain ⟨field, _, h⟩ := Option.bind_eq_some_iff.1 h
      obtain ⟨⟨others, last⟩, hothers, h⟩ := Option.bind_eq_some_iff.1 h
      have := ih hothers
      grind

/-- How many fields a head may have. -/
def mostFields : Nat := 100

/-! ## Heads -/

/-- The head of a response. -/
structure Head where
  status : Status
  fields : List Field
  deriving DecidableEq, Repr, Inhabited

/-- The head at the start of some bytes, and the bytes after it. -/
def readHead? (bytes : List UInt8) : Option (Head × List UInt8) := do
  let (line, rest) ← line? (skipEmptyLines bytes)
  let status ← readStatus? line
  let (fields, after) ← readFields? mostFields rest
  some (⟨status, fields⟩, after)

/-- A head takes at least one byte. -/
theorem length_of_readHead? {bytes rest : List UInt8} {head : Head}
    (h : readHead? bytes = some (head, rest)) : rest.length < bytes.length := by
  unfold readHead? at h
  obtain ⟨⟨line, after⟩, hline, h⟩ := Option.bind_eq_some_iff.1 h
  obtain ⟨status, _, h⟩ := Option.bind_eq_some_iff.1 h
  obtain ⟨⟨fields, last⟩, hfields, h⟩ := Option.bind_eq_some_iff.1 h
  have := length_of_line? hline
  have := length_of_readFields? hfields
  have := length_skipEmptyLines_le bytes
  grind

/-- The values of the fields with a name, in their order. -/
def Head.values (head : Head) (name : String) : List (List Char) :=
  (head.fields.filter (·.name = name)).map (·.value)

end BlockWatch.Rpc.Wire
