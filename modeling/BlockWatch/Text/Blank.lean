import BlockWatch.Text.Pieces

/-!
# Blank characters and trimming

Normative source: SPEC_FULL.md, section 10.4: "one address per line, `#` comments and blank lines
ignored".

Blanks are the characters with the property White_Space, as ranges of code points.  `trim` gives the
text between the first and the last character that is no blank.  `lines` cuts a text at every line
feed; what follows the last line feed is a line too.  Watchlists are read with both of them.
-/

set_option autoImplicit false

namespace BlockWatch.Text

/-- The closed ranges of code points with the property White_Space, ascending. -/
def blankRanges : List (Nat × Nat) :=
  [(0x9, 0xd), (0x20, 0x20), (0x85, 0x85), (0xa0, 0xa0), (0x1680, 0x1680), (0x2000, 0x200a),
   (0x2028, 0x2029), (0x202f, 0x202f), (0x205f, 0x205f), (0x3000, 0x3000)]

/-- Whether `c` has the property White_Space. -/
def isBlank (c : Char) : Bool :=
  blankRanges.any fun range => range.1 ≤ c.toNat && c.toNat ≤ range.2

/-- Drop the blank characters in front. -/
def trimLeft (text : List Char) : List Char := text.dropWhile isBlank

/-- Drop the blank characters on both sides. -/
def trim (text : List Char) : List Char := (trimLeft (trimLeft text).reverse).reverse

/-- The lines of a text, without the line feeds between them. -/
def lines (text : List Char) : List (List Char) := pieces (· = '\n') text

/-- A zero-width space is not blank, an ideographic space is. -/
example : isBlank '\u200b' = false ∧ isBlank '\u3000' = true := by decide

/-- Only the sides are trimmed. -/
example : trim " a b\t".toList = "a b".toList := by decide

example : lines "a\n\nb\n".toList = [['a'], [], ['b'], []] := by decide

end BlockWatch.Text
