import BlockWatch.Failure
import BlockWatch.Hex

/-!
# Quantities

Normative source: SPEC_FULL.md, section 4.1:

    `strToHex(s) -> int | BadFormat`: requires `0x` prefix; else fails. Parses remainder as
    hexadecimal.
    `numToStr(n) -> string`: formats as lowercase `0x`-prefixed hex, minimal digit count.

and section 3, "fitting a 64-bit signed integer".

`decode` models `strToHex` and `encode` models `numToStr`.  A quantity is `0x` and the hexadecimal
digits of a signed 64-bit number; numbers are integers here, and `inRange` is the range.  `decode`
reads any number of leading zeros, digits of either case and an optional sign.  It extends the value
digit by digit and never wraps around: a digit that takes the value out of range is refused, and at
each place an invalid digit is found before an overflow.  `encode` writes the shortest digits in
lower case.  A negative number is written as the digits of its two's complement, which `decode`
refuses.  `add?` is the addition that fails beyond the range.
-/

set_option autoImplicit false

namespace BlockWatch.Quantity

/-- The largest number a quantity stands for. -/
def maxValue : Int := 0x7fffffffffffffff

/-- The smallest number a quantity stands for. -/
def minValue : Int := -0x8000000000000000

/-- The sign in front of the digits. -/
inductive Sign where
  | plus
  | minus
  deriving DecidableEq, Repr, Inhabited

namespace Sign

/-- The value after one more digit. -/
def extend (sign : Sign) (value : Int) (digit : Nat) : Int :=
  match sign with
  | .plus => 16 * value + digit
  | .minus => 16 * value - digit

/-- What a value out of range is refused as. -/
def overflow : Sign → DigitFault
  | .plus => .tooLarge
  | .minus => .tooSmall

end Sign

/-- Whether a number is in the range of quantities. -/
def inRange (n : Int) : Bool := minValue ≤ n && n ≤ maxValue

/-- Read digits after the value `value`, left to right; the first character that is no digit or
that takes the value out of range decides the refusal. -/
def readDigits (sign : Sign) (value : Int) : List Char → Except DigitFault Int
  | [] => .ok value
  | c :: rest =>
      match Hex.value? c with
      | none => .error .invalidDigit
      | some digit =>
          let next := sign.extend value digit
          if inRange next then readDigits sign next rest else .error sign.overflow

/-- Read an optional sign and at least one digit. -/
def readSigned : List Char → Except DigitFault Int
  | [] => .error .empty
  | ['+'] | ['-'] => .error .invalidDigit
  | '+' :: digits => readDigits .plus 0 digits
  | '-' :: digits => readDigits .minus 0 digits
  | digits => readDigits .plus 0 digits

/-- Read a quantity. -/
def decode (text : String) : Except Failure Int :=
  match text.toList with
  | '0' :: 'x' :: digits =>
      match readSigned digits with
      | .ok n => .ok n
      | .error fault => .error (.invalidHex text fault)
  | _ => .error (.badFormat text)

/-- The number whose digits stand for `n`: itself, or its 64-bit two's complement. -/
def unsigned (n : Int) : Nat := if 0 ≤ n then n.toNat else (0x10000000000000000 + n).toNat

/-- Write a number as a quantity. -/
def encode (n : Int) : String := String.ofList ('0' :: 'x' :: Hex.digits (unsigned n))

/-- The sum of two numbers, unless it is too large. -/
def add? (n : Int) (offset : Nat) : Option Int :=
  if n + offset ≤ maxValue then some (n + offset) else none

end BlockWatch.Quantity
