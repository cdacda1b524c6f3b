import BlockWatch.Hex

/-!
# Addresses

Normative source: SPEC_FULL.md, section 4.1, `normalizeAddress`:

    `0x` + (digits after stripping prefix, then stripping all leading `'0'` characters). Purely a
    leading-zero normalizer; case is untouched (flagged in §9).

and section 10.1, module `hex`:

    plus `is_address` (syntactic address check used by watchlist/CLI input)

`canonical` models `normalizeAddress` and `isValid` models `is_address`.  Addresses stay texts: two
spellings that differ in leading zeros only have the same canonical spelling, and the case of the
letters is part of an address.  `canonical` is total.  Of a text without the prefix only leading
zeros are dropped, and of the address zero no digit is left.
-/

set_option autoImplicit false

namespace BlockWatch.Address

/-- Drop one `0x` in front, if there is one. -/
def digitsOf : List Char → List Char
  | '0' :: 'x' :: digits => digits
  | digits => digits

/-- The spelling of an address without leading zeros. -/
def canonical (address : String) : String :=
  String.ofList ('0' :: 'x' :: (digitsOf address.toList).dropWhile (· = '0'))

/-- The most digits an address has. -/
def maxDigits : Nat := 40

/-- Whether a text is `0x` and one to forty hexadecimal digits. -/
def isValid (text : String) : Bool :=
  match text.toList with
  | '0' :: 'x' :: digits =>
      !digits.isEmpty && digits.length ≤ maxDigits && digits.all Hex.isDigit
  | _ => false

end BlockWatch.Address
