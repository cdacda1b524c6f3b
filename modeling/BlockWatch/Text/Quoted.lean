import BlockWatch.Hex
import BlockWatch.Text.Extending
import BlockWatch.Text.Unprintable

/-!
# Quoted texts

Normative source: SPEC_FULL.md, section 7, on failures that carry the malformed input:

    `BadFormat` (malformed hex input to the codec)

A text inside a message stands between double quotes, with everything escaped that a reader could
not see or could take for something else.  Six characters have a short escape, the characters that
extend the one before or have no printed form are written by code point, and every other character
stands for itself.
-/

set_option autoImplicit false

namespace BlockWatch.Text

/-- The escape of a character by its code point. -/
def escapeByCode (c : Char) : List Char :=
  ['\\', 'u', '\x7b'] ++ Hex.digits c.toNat ++ ['\x7d']

/-- How one character is written between the quotes. -/
def escape (c : Char) : List Char :=
  match c with
  | '\x00' => ['\\', '0']
  | '\t' => ['\\', 't']
  | '\n' => ['\\', 'n']
  | '\r' => ['\\', 'r']
  | '\\' => ['\\', '\\']
  | '"' => ['\\', '"']
  | _ => if isExtending c || isUnprintable c then escapeByCode c else [c]

/-- The quoted form of a text. -/
def quoted (text : String) : String :=
  String.ofList (['"'] ++ text.toList.flatMap escape ++ ['"'])

end BlockWatch.Text
