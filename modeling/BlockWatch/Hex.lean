/-!
# Hexadecimal digits

Normative source: SPEC_FULL.md, section 4.1:

    `numToStr(n) -> string`: formats as lowercase `0x`-prefixed hex, minimal digit count.

The sixteen digits and their values, and the digits of a natural number without leading zeros.
Digits are written in lower case (`digit`) and read in either (`value?`).  Quantities, addresses and
escapes in texts are made of them.
-/

set_option autoImplicit false

namespace BlockWatch.Hex

/-- The lower-case digit of a value below sixteen. -/
def digit (value : Nat) : Char :=
  if value < 10 then Char.ofNat ('0'.toNat + value) else Char.ofNat ('a'.toNat + (value - 10))

/-- The value of a digit of either case. -/
def value? (c : Char) : Option Nat :=
  if '0' ≤ c ∧ c ≤ '9' then some (c.toNat - '0'.toNat)
  else if 'a' ≤ c ∧ c ≤ 'f' then some (c.toNat - 'a'.toNat + 10)
  else if 'A' ≤ c ∧ c ≤ 'F' then some (c.toNat - 'A'.toNat + 10)
  else none

/-- Whether `c` is a digit of either case. -/
def isDigit (c : Char) : Bool := (value? c).isSome

/-- The digits of `n`, most significant first, without leading zeros; zero is one digit. -/
def digits (n : Nat) : List Char :=
  if n < 16 then [digit n] else digits (n / 16) ++ [digit (n % 16)]
termination_by n
decreasing_by omega

/-- The digits of `n` as a text. -/
def text (n : Nat) : String := String.ofList (digits n)

/-- Reading the digit of a value gives the value. -/
theorem value?_digit {value : Nat} (h : value < 16) : value? (digit value) = some value := by
  have all : ∀ v : Fin 16, value? (digit v.val) = some v.val := by decide
  exact all ⟨value, h⟩

theorem digits_ne_nil (n : Nat) : digits n ≠ [] := by
  unfold digits
  split <;> simp

end BlockWatch.Hex
