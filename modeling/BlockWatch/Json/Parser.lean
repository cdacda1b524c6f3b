import BlockWatch.Hex
import BlockWatch.Json.Value

/-!
# Reading JSON

Normative source: SPEC_FULL.md, section 10.5, for the JSON-RPC envelopes that are read.

`Json.parse?` reads one value that takes up a whole text, blanks around it aside.  It refuses every
text outside the grammar, a number too large for a double, a lone half of a surrogate pair, and
values nested deeper than `maxDepth`.  Of several members under one key the last one counts.

A number without fraction and exponent is an integer if it has 64 bits, and a double otherwise.  The
significand of a double is read into 64 bits, and later digits only move the exponent.

Reading is by structural recursion on fuel.  `parse?` gives as much fuel as the text is long, and
every recursive call comes after at least one character.
-/

set_option autoImplicit false

namespace BlockWatch.Json

/-! ## Blanks and fixed words -/

/-- The characters allowed between the parts of a value. -/
def isSpace (c : Char) : Bool := c = ' ' || c = '\n' || c = '\t' || c = '\r'

/-- What is left after the blanks. -/
def skipSpace (input : List Char) : List Char := input.dropWhile isSpace

/-- What is left after a fixed word. -/
def expect (word : List Char) (input : List Char) : Option (List Char) :=
  if word.isPrefixOf input then some (input.drop word.length) else none

/-! ## Strings -/

/-- The value of four hexadecimal digits, and what is left after them. -/
def readCode : List Char → Option (Nat × List Char)
  | a :: b :: c :: d :: rest => do
      let a ← Hex.value? a
      let b ← Hex.value? b
      let c ← Hex.value? c
      let d ← Hex.value? d
      pure (((a * 16 + b) * 16 + c) * 16 + d, rest)
  | _ => none

/-- The character of an escape by code, after the `\u`, and what is left.  A first half of a
surrogate pair needs the second one right after it. -/
def readCodeEscape (input : List Char) : Option (Char × List Char) :=
  match readCode input with
  | none => none
  | some (code, rest) =>
      if code < 0xD800 ∨ 0xE000 ≤ code then some (Char.ofNat code, rest)
      else if 0xDC00 ≤ code then none
      else
        match rest with
        | '\\' :: 'u' :: rest =>
            match readCode rest with
            | none => none
            | some (low, rest) =>
                if 0xDC00 ≤ low ∧ low < 0xE000 then
                  some (Char.ofNat (0x10000 + (code - 0xD800) * 0x400 + (low - 0xDC00)), rest)
                else none
        | _ => none

/-- The character of an escape, after the backslash, and what is left. -/
def readEscape : List Char → Option (Char × List Char)
  | '"' :: rest => some ('"', rest)
  | '\\' :: rest => some ('\\', rest)
  | '/' :: rest => some ('/', rest)
  | 'b' :: rest => some ('\x08', rest)
  | 'f' :: rest => some ('\x0c', rest)
  | 'n' :: rest => some ('\n', rest)
  | 'r' :: rest => some ('\r', rest)
  | 't' :: rest => some ('\t', rest)
  | 'u' :: rest => readCodeEscape rest
  | _ => none

/-- The characters of a string up to its closing quote, newest first in `read`, and what is left
after the quote. -/
def readString : (fuel : Nat) → (read : List Char) → List Char → Option (String × List Char)
  | 0, _, _ => none
  | _ + 1, _, [] => none
  | fuel + 1, read, c :: rest =>
      if c = '"' then some (String.ofList read.reverse, rest)
      else if c = '\\' then
        match readEscape rest with
        | some (escaped, rest) => readString fuel (escaped :: read) rest
        | none => none
      else if c.toNat < 0x20 then none
      else readString fuel (c :: read) rest

/-! ## Numbers -/

/-- The largest significand that is read digit by digit. -/
def maxSignificand : Nat := 0xffffffffffffffff

/-- The value of a decimal digit. -/
def digitValue (c : Char) : Nat := c.toNat - '0'.toNat

/-- The digits in front, and what is left after them. -/
def readDigits (input : List Char) : List Nat × List Char :=
  ((input.takeWhile Char.isDigit).map digitValue, input.dropWhile Char.isDigit)

/-- The significand after the digits before the point, and how many of them no longer fitted. -/
def addWhole (significand : Nat) : List Nat → Nat × Nat
  | [] => (significand, 0)
  | digit :: rest =>
      if 10 * significand + digit ≤ maxSignificand then addWhole (10 * significand + digit) rest
      else (significand, rest.length + 1)

/-- The significand after the digits behind the point, and how many of them it holds; digits that
no longer fit are dropped. -/
def addFraction (significand : Nat) : List Nat → Nat × Nat
  | [] => (significand, 0)
  | digit :: rest =>
      if 10 * significand + digit ≤ maxSignificand then
        let (sum, held) := addFraction (10 * significand + digit) rest
        (sum, held + 1)
      else (significand, 0)

/-- The digits behind a point, and what is left; there is at least one. -/
def readFraction : List Char → Option (List Nat × List Char)
  | '.' :: rest =>
      match readDigits rest with
      | ([], _) => none
      | (digits, rest) => some (digits, rest)
  | rest => some ([], rest)

/-- The digits of an exponent, after its sign, as a number; there is at least one. -/
def readExponentDigits (input : List Char) : Option (Nat × List Char) :=
  match readDigits input with
  | ([], _) => none
  | (digits, rest) => some (digits.foldl (fun n digit => 10 * n + digit) 0, rest)

/-- The exponent, if there is one, and what is left. -/
def readExponent : List Char → Option (Option Int × List Char)
  | 'e' :: rest | 'E' :: rest =>
      match rest with
      | '-' :: rest => (readExponentDigits rest).map fun (n, rest) => (some (-(n : Int)), rest)
      | '+' :: rest => (readExponentDigits rest).map fun (n, rest) => (some (n : Int), rest)
      | rest => (readExponentDigits rest).map fun (n, rest) => (some (n : Int), rest)
  | rest => some (none, rest)

/-- The double with this sign, significand and power of ten. -/
def floatNumber (negative : Bool) (significand : Nat) (exponent : Int) : Option JsonNumber :=
  (Decimal.scaled significand exponent).map fun f =>
    .float (.ofFloat (if negative then -f else f))

/-- How far below zero integers go. -/
def maxNegated : Nat := 0x8000000000000000

/-- The number of a text without point and exponent.  A negative zero and a number that does not
fit 64 bits are doubles. -/
def wholeNumber (negative : Bool) (significand : Nat) (dropped : Nat) : Option JsonNumber :=
  if dropped = 0 then
    if negative then
      if significand = 0 ∨ maxNegated < significand then floatNumber true significand 0
      else some (.int (-(significand : Int)))
    else some (.int significand)
  else floatNumber negative significand dropped

/-- A number after its sign, and what is left.  A leading zero stands alone before the point. -/
def readUnsigned (negative : Bool) (input : List Char) : Option (JsonNumber × List Char) :=
  match readDigits input with
  | ([], _) => none
  | (0 :: _ :: _, _) => none
  | (whole, rest) => do
      let (significand, dropped) := addWhole 0 whole
      let (fraction, rest) ← readFraction rest
      let (exponent, rest) ← readExponent rest
      let number ←
        if fraction.isEmpty ∧ exponent.isNone then wholeNumber negative significand dropped
        else
          let (significand, held) := addFraction significand fraction
          floatNumber negative significand ((dropped : Int) - held + exponent.getD 0)
      pure (number, rest)

/-- A number, and what is left. -/
def readNumber : List Char → Option (JsonNumber × List Char)
  | '-' :: rest => readUnsigned true rest
  | rest => readUnsigned false rest

/-! ## Values -/

/-- How many arrays and objects may stand inside one another. -/
def maxDepth : Nat := 127

mutual

/-- A value with at most `depth` levels, and what is left after it. -/
def readValue : (fuel depth : Nat) → List Char → Option (Json × List Char)
  | 0, _, _ => none
  | fuel + 1, depth, input =>
      match skipSpace input with
      | [] => none
      | 'n' :: rest => (expect ['u', 'l', 'l'] rest).map fun rest => (.null, rest)
      | 't' :: rest => (expect ['r', 'u', 'e'] rest).map fun rest => (.bool true, rest)
      | 'f' :: rest => (expect ['a', 'l', 's', 'e'] rest).map fun rest => (.bool false, rest)
      | '"' :: rest => (readString (rest.length + 1) [] rest).map fun (s, rest) => (.string s, rest)
      | '[' :: rest =>
          match depth with
          | 0 => none
          | depth + 1 =>
              match skipSpace rest with
              | ']' :: rest => some (.array [], rest)
              | rest => (readItems fuel depth [] rest).map fun (items, rest) => (.array items, rest)
      | '\x7b' :: rest =>
          match depth with
          | 0 => none
          | depth + 1 =>
              match skipSpace rest with
              | '\x7d' :: rest => some (.object [], rest)
              | rest =>
                  (readMembers fuel depth [] rest).map fun (members, rest) =>
                    (.object members, rest)
      | rest => (readNumber rest).map fun (n, rest) => (.number n, rest)

/-- The items of an array from one of them to the closing bracket, the earlier ones newest first
in `read`. -/
def readItems : (fuel depth : Nat) → (read : List Json) → List Char →
    Option (List Json × List Char)
  | 0, _, _, _ => none
  | fuel + 1, depth, read, input =>
      match readValue fuel depth input with
      | none => none
      | some (item, rest) =>
          match skipSpace rest with
          | ',' :: rest => readItems fuel depth (item :: read) rest
          | ']' :: rest => some ((item :: read).reverse, rest)
          | _ => none

/-- The members of an object from one of them to the closing brace, the earlier ones in order in
`read`. -/
def readMembers : (fuel depth : Nat) → (read : List (String × Json)) → List Char →
    Option (List (String × Json) × List Char)
  | 0, _, _, _ => none
  | fuel + 1, depth, read, input =>
      match skipSpace input with
      | '"' :: rest =>
          match readString (rest.length + 1) [] rest with
          | none => none
          | some (key, rest) =>
              match skipSpace rest with
              | ':' :: rest =>
                  match readValue fuel depth rest with
                  | none => none
                  | some (value, rest) =>
                      match skipSpace rest with
                      | ',' :: rest => readMembers fuel depth (insertMember key value read) rest
                      | '\x7d' :: rest => some (insertMember key value read, rest)
                      | _ => none
              | _ => none
      | _ => none

end

/-- Read a text that holds one value and nothing else.  Every step of reading takes at least one
character, so the length of the text bounds their number. -/
def parse? (text : String) : Option Json :=
  let input := text.toList
  match readValue (2 * input.length + 2) maxDepth input with
  | some (value, rest) => if (skipSpace rest).isEmpty then some value else none
  | none => none

end BlockWatch.Json
