import BlockWatch.Decimal.Text
import BlockWatch.Hex
import BlockWatch.Json.Value

/-!
# Writing JSON

Normative source: SPEC_FULL.md, section 10.5, for the requests that are written, and section 10.6
for notifications.

The compact text of a value: no blanks, members in the order in which the value holds them, and in
strings only what has to be escaped.  Doubles are written with the digits of their shortest decimal
(`Decimal.Text`).
-/

set_option autoImplicit false

namespace BlockWatch

/-- Doubles are written in place from four zeros after the point up to sixteen digits before
it. -/
def JsonNumber.layout : Decimal.Layout where
  mostZeros := 4
  mostWhole := 16

/-- The text of a number. -/
def JsonNumber.text : JsonNumber → String
  | .int n => toString n
  | .float d => layout.text d

namespace Json

/-- How one character of a string is written: controls by a short escape or by code point. -/
def escapeChar (c : Char) : List Char :=
  match c with
  | '"' => ['\\', '"']
  | '\\' => ['\\', '\\']
  | '\n' => ['\\', 'n']
  | '\r' => ['\\', 'r']
  | '\t' => ['\\', 't']
  | '\x08' => ['\\', 'b']
  | '\x0c' => ['\\', 'f']
  | _ =>
      if c.toNat < 0x20 then
        ['\\', 'u', '0', '0', Hex.digit (c.toNat / 16), Hex.digit (c.toNat % 16)]
      else [c]

/-- A string between its quotes. -/
def quote (s : String) : String :=
  String.ofList ('"' :: s.toList.flatMap escapeChar ++ ['"'])

mutual

/-- The compact text of a value. -/
def text : Json → String
  | .null => "null"
  | .bool true => "true"
  | .bool false => "false"
  | .number n => n.text
  | .string s => quote s
  | .array items => "[" ++ String.intercalate "," (itemTexts items) ++ "]"
  | .object members => "\x7b" ++ String.intercalate "," (memberTexts members) ++ "\x7d"

/-- The texts of the items of an array. -/
def itemTexts : List Json → List String
  | [] => []
  | item :: rest => item.text :: itemTexts rest

/-- The texts of the members of an object. -/
def memberTexts : List (String × Json) → List String
  | [] => []
  | (key, value) :: rest => (quote key ++ ":" ++ value.text) :: memberTexts rest

end

end Json

end BlockWatch
