import BlockWatch.Proofs.Quantity.Grammar

/-!
# Quantities that are written and read back

Normative source: SPEC_FULL.md, section 8:

    For any hex string with no redundant leading zeros, `numToStr(strToHex(x)) == x`.

Writing a number that is not negative and reading the text gives the number again.  A negative
number is written as its two's complement, which is above the largest quantity, so its text is
refused: `encode` followed by `decode` fails on exactly the negative numbers.  Of the texts that
stand for a number one is written, the shortest in lower case (`Shortest`).

`decode_encode` is the result for every number of 64 bits and every text.  The digits of a number
are a numeral in the sense of `Proofs.Quantity.Grammar`, so nothing here is proved by following the
reader again.
-/

set_option autoImplicit false

namespace BlockWatch.Quantity

/-! ## Numbers that are written -/

theorem toList_encode (n : Int) : (encode n).toList = '0' :: 'x' :: Hex.digits (unsigned n) :=
  String.toList_ofList

theorem encode_zero : encode 0 = "0x0" := by
  rw [← String.toList_inj, toList_encode]
  exact congrArg ('0' :: 'x' :: ·) (Hex.digits_of_lt (by decide))

theorem unsigned_of_nonneg {n : Int} (h : 0 ≤ n) : (unsigned n : Int) = n := by
  rw [unsigned, if_pos h, Int.toNat_of_nonneg h]

/-- The digits written for a negative number have its two's complement as their value. -/
theorem unsigned_of_neg {n : Int} (hmin : -2 ^ 63 ≤ n) (h : n < 0) :
    (unsigned n : Int) = 2 ^ 64 + n := by
  rw [unsigned, if_neg (Int.not_le.mpr h)]
  omega

theorem isDigit_digits (n : Nat) : ∀ c ∈ Hex.digits n, Hex.isDigit c = true :=
  fun c hc => Hex.isDigit_of_isLower (Hex.isLower_digits n c hc)

theorem numeral_digits (n : Nat) : Numeral (Hex.digits n) n :=
  ⟨.plus, [], Hex.digits n, by simp [Sign.spellings], rfl, Hex.digits_ne_nil n, isDigit_digits n,
    congrArg Nat.cast (Hex.valueOf_digits n)⟩

theorem splitSign_digits (n : Nat) : splitSign (Hex.digits n) = (.plus, Hex.digits n) := by
  obtain ⟨c, rest, hdigits⟩ := List.exists_cons_of_ne_nil (Hex.digits_ne_nil n)
  rw [hdigits]
  exact splitSign_of_isDigit (isDigit_digits n c (hdigits ▸ List.mem_cons_self)) rest

/-- Of the digits of a number that is too large only the last one has a fault, if without it the
number is not too large. -/
theorem refused_digits {n : Nat} (large : 2 ^ 63 ≤ n) (front : n / 16 < 2 ^ 63) :
    Refused (Hex.digits n) .tooLarge := by
  have hdigits := Hex.digits_of_le (n := n) (by omega)
  have hrange : inRange (Sign.value .plus (Hex.digits (n / 16))) = true := by
    rw [Sign.value, Hex.valueOf_digits, inRange_iff]
    omega
  have hfault : fault? .plus (Hex.digits (n / 16)) (Hex.digit (n % 16)) = some .tooLarge := by
    have hlast : Hex.isDigit (Hex.digit (n % 16)) = true :=
      isDigit_digits n _ (hdigits ▸ List.mem_append_right _ List.mem_cons_self)
    have hout : ¬ inRange (Sign.value .plus (Hex.digits n)) = true := by
      rw [Sign.value, Hex.valueOf_digits, inRange_iff]
      omega
    rw [fault?, ← hdigits, if_neg hout, hlast]
    rfl
  refine .inr (.inr ?_)
  rw [splitSign_digits]
  exact ⟨_, _, [], hdigits, hfault, fun _ _ _ => fault?_of_inRange (isDigit_digits _) hrange⟩

/-! ## Numbers that are read back -/

theorem decode_encode_of_nonneg {n : Int} (h : 0 ≤ n) (hle : n ≤ maxValue) :
    decode (encode n) = .ok n := by
  refine decode_eq_ok_iff.mpr ⟨_, toList_encode n, ?_, ?_⟩
  · have hnumeral := numeral_digits (unsigned n)
    rwa [unsigned_of_nonneg h] at hnumeral
  · unfold maxValue at hle
    rw [inRange_iff]
    omega

theorem decode_encode_of_neg {n : Int} (hmin : minValue ≤ n) (h : n < 0) :
    decode (encode n) = .error (.invalidHex (encode n) .tooLarge) := by
  -- the two's complement of a negative number has its highest bit set
  unfold minValue at hmin
  have hunsigned := unsigned_of_neg hmin h
  have hrefused := refused_digits (n := unsigned n) (by omega) (by omega)
  rw [decode_of_front (toList_encode n), readSigned_eq_error_iff.mpr hrefused]

theorem inRange_of_decode {text : String} {n : Int} (h : decode text = .ok n) :
    minValue ≤ n ∧ n ≤ maxValue := by
  obtain ⟨rest, -, -, hrange⟩ := decode_eq_ok_iff.mp h
  simpa [inRange] using hrange

/-- If the text of a number in range is a quantity, it stands for that number. -/
theorem eq_of_decode_encode {n m : Int} (hmin : minValue ≤ n) (hle : n ≤ maxValue)
    (h : decode (encode n) = .ok m) : m = n := by
  by_cases hn : 0 ≤ n
  · rw [decode_encode_of_nonneg hn hle] at h
    exact (Except.ok.inj h).symm
  · rw [decode_encode_of_neg hmin (Int.not_le.mp hn)] at h
    cases h

theorem decode_of_add? {text : String} {n next m : Int} {step : Nat}
    (hread : decode text = .ok n) (hadd : add? n step = some next)
    (h : decode (encode next) = .ok m) : m = n + step := by
  obtain ⟨hmin, _⟩ := inRange_of_decode hread
  unfold add? at hadd
  split at hadd
  · rename_i hle
    cases hadd
    exact eq_of_decode_encode (by omega) hle h
  · cases hadd

/-! ## Texts that are written again -/

/-- The text `0x0`, or `0x` and digits of lower case without a zero in front, for a number that is
not too large. -/
def Shortest (text : String) : Prop :=
  text = "0x0" ∨ ∃ digits, text.toList = '0' :: 'x' :: digits ∧ digits ≠ [] ∧
    digits.head? ≠ some '0' ∧ (∀ c ∈ digits, Hex.isLower c = true) ∧
    Hex.valueOf digits ≤ 2 ^ 63 - 1

/-- The text `0x` and sixteen digits of lower case, the two's complement of a negative number. -/
def Complement (text : String) (n : Int) : Prop :=
  ∃ digits, text.toList = '0' :: 'x' :: digits ∧ digits.length = 16 ∧
    (∀ c ∈ digits, Hex.isLower c = true) ∧ (Hex.valueOf digits : Int) = 2 ^ 64 + n

theorem shortest_encode {n : Int} (h : 0 ≤ n) (hle : n ≤ maxValue) : Shortest (encode n) := by
  have hunsigned := unsigned_of_nonneg h
  unfold maxValue at hle
  by_cases hzero : n = 0
  · subst hzero
    exact .inl encode_zero
  · refine .inr ⟨_, toList_encode n, Hex.digits_ne_nil _, Hex.head?_digits (by omega),
      Hex.isLower_digits _, ?_⟩
    rw [Hex.valueOf_digits]
    omega

theorem encode_of_shortest {text : String} (h : Shortest text) :
    ∃ n : Int, 0 ≤ n ∧ n ≤ maxValue ∧ encode n = text := by
  rcases h with rfl | ⟨digits, htext, hsome, hfirst, hlower, hmax⟩
  · exact ⟨0, by decide, by decide, encode_zero⟩
  · refine ⟨Hex.valueOf digits, by omega, by unfold maxValue; omega, ?_⟩
    have hunsigned : unsigned (Hex.valueOf digits) = Hex.valueOf digits :=
      Int.ofNat.inj (unsigned_of_nonneg (by omega))
    rw [← String.toList_inj, toList_encode, htext, hunsigned,
      Hex.digits_valueOf hsome hlower (.inr hfirst)]

theorem complement_encode {n : Int} (hmin : -2 ^ 63 ≤ n) (h : n < 0) :
    Complement (encode n) n := by
  have hunsigned := unsigned_of_neg hmin h
  refine ⟨_, toList_encode n, ?_, Hex.isLower_digits _, ?_⟩
  · exact Hex.length_digits (k := 15) (by omega) (by omega)
  · rw [Hex.valueOf_digits, hunsigned]

/-- Decoding inverts `encode` on numbers that are not negative, and `encode` inverts `decode`
exactly on the shortest texts in lower case.  A negative number is written as its two's complement,
and that text is refused. -/
theorem decode_encode :
    (∀ n : Int, 0 ≤ n → n ≤ 2 ^ 63 - 1 → decode (encode n) = .ok n) ∧
      (∀ text, (∃ n, decode text = .ok n ∧ encode n = text) ↔ Shortest text) ∧
      ∀ n : Int, -2 ^ 63 ≤ n → n < 0 →
        Complement (encode n) n ∧
          decode (encode n) = .error (.invalidHex (encode n) .tooLarge) := by
  refine ⟨fun n h hle => decode_encode_of_nonneg h hle, ?_, fun n hmin h =>
    ⟨complement_encode hmin h, decode_encode_of_neg hmin h⟩⟩
  intro text
  constructor
  · rintro ⟨n, hread, rfl⟩
    obtain ⟨hmin, hmax⟩ := inRange_of_decode hread
    -- the text of a negative number is not read at all
    have hnonneg : 0 ≤ n := by
      by_contra hneg
      rw [decode_encode_of_neg hmin (Int.not_le.mp hneg)] at hread
      cases hread
    exact shortest_encode hnonneg hmax
  · intro h
    obtain ⟨n, hnonneg, hmax, rfl⟩ := encode_of_shortest h
    exact ⟨n, decode_encode_of_nonneg hnonneg hmax, rfl⟩

/-- The largest number and its text, and the smallest number. -/
theorem decode_encode_bounds :
    decode (encode (2 ^ 63 - 1)) = .ok (2 ^ 63 - 1) ∧
      (∃ n, decode "0x7fffffffffffffff" = .ok n ∧ encode n = "0x7fffffffffffffff") ∧
      Complement (encode (-2 ^ 63)) (-2 ^ 63) := by
  obtain ⟨hread, hshortest, hnegative⟩ := decode_encode
  have hvalue : Hex.valueOf "7fffffffffffffff".toList = 0x7fffffffffffffff := rfl
  have hlower : ∀ c ∈ "7fffffffffffffff".toList, Hex.isLower c = true :=
    List.all_eq_true.mp (by decide)
  have largest : Shortest "0x7fffffffffffffff" :=
    .inr ⟨"7fffffffffffffff".toList, rfl, by decide, by decide, hlower, by omega⟩
  exact ⟨hread _ (by omega) (by omega), (hshortest _).mpr largest,
    (hnegative _ (by omega) (by omega)).1⟩

end BlockWatch.Quantity
