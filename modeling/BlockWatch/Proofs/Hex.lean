import BlockWatch.Hex
import Mathlib.Algebra.Group.Int.Defs
import Mathlib.Algebra.Group.Nat.Defs
import Mathlib.Data.List.Basic
import Mathlib.Data.List.Induction

/-!
# Digits and their value

Normative source: SPEC_FULL.md, section 8:

    For any hex string with no redundant leading zeros, `numToStr(strToHex(x)) == x`.

Every text of digits has a value (`valueOf`), whatever the case of its letters and however many
zeros are in front.  Among the texts with one value `digits` writes the shortest in lower case: no
zero is in front of it, unless it is the one digit of zero.  `valueOf_digits` and `digits_valueOf`
are the two inversions, and `significant` are the digits that count.

Inductions are on the last digit, as `digits` is by division with remainder.  The facts about single
digits are decided, for the sixteen values or for every character up to `f`.
-/

set_option autoImplicit false

namespace BlockWatch.Hex

/-! ## Values -/

/-- The value of digits, most significant first. -/
def valueOf (text : List Char) : Nat :=
  text.foldl (fun value c => 16 * value + (value? c).getD 0) 0

theorem valueOf_concat {c : Char} {digit : Nat} (h : value? c = some digit) (text : List Char) :
    valueOf (text ++ [c]) = 16 * valueOf text + digit := by
  simp [valueOf, h]

theorem valueOf_singleton {c : Char} {digit : Nat} (h : value? c = some digit) :
    valueOf [c] = digit := by
  simp [valueOf, h]

theorem valueOf_le_append (text more : List Char) : valueOf text ≤ valueOf (text ++ more) := by
  induction more using List.reverseRecOn with
  | nil => simp
  | append_singleton more c ih =>
      rw [← List.append_assoc]
      simp only [valueOf, List.foldl_append, List.foldl_cons, List.foldl_nil] at ih ⊢
      omega

/-! ## Digits in lower case -/

/-- Whether `c` is a digit of lower case. -/
def isLower (c : Char) : Bool := ('0' ≤ c && c ≤ '9') || ('a' ≤ c && c ≤ 'f')

theorem isLower_iff {c : Char} : isLower c = true ↔ ∃ value < 16, digit value = c := by
  constructor
  · intro h
    simp only [isLower, Bool.or_eq_true, Bool.and_eq_true, decide_eq_true_eq] at h
    rcases h with hdecimal | hletter
    · have hrange : 48 ≤ c.toNat ∧ c.toNat ≤ 57 := hdecimal
      refine ⟨c.toNat - 48, by omega, ?_⟩
      have hsum : '0'.toNat + (c.toNat - 48) = c.toNat := by
        show 48 + (c.toNat - 48) = c.toNat
        omega
      rw [digit, if_pos (by omega), hsum, Char.ofNat_toNat]
    · have hrange : 97 ≤ c.toNat ∧ c.toNat ≤ 102 := hletter
      refine ⟨c.toNat - 87, by omega, ?_⟩
      have hsum : 'a'.toNat + (c.toNat - 87 - 10) = c.toNat := by
        show 97 + (c.toNat - 87 - 10) = c.toNat
        omega
      rw [digit, if_neg (by omega), hsum, Char.ofNat_toNat]
  · rintro ⟨value, hvalue, rfl⟩
    have all : ∀ v : Fin 16, isLower (digit v.val) = true := by decide
    exact all ⟨value, hvalue⟩

theorem isDigit_of_isLower {c : Char} (h : isLower c = true) : isDigit c = true := by
  obtain ⟨value, hvalue, rfl⟩ := isLower_iff.mp h
  rw [isDigit, value?_digit hvalue]
  rfl

theorem digit_eq_zero_iff {value : Nat} (h : value < 16) : digit value = '0' ↔ value = 0 := by
  have all : ∀ v : Fin 16, digit v.val = '0' ↔ v.val = 0 := by decide
  exact all ⟨value, h⟩

theorem valueOf_pos {c : Char} (lower : isLower c = true) (h : c ≠ '0') (rest : List Char) :
    0 < valueOf (c :: rest) := by
  obtain ⟨value, hvalue, rfl⟩ := isLower_iff.mp lower
  have hfirst : value ≤ valueOf (digit value :: rest) :=
    calc value = valueOf [digit value] := (valueOf_singleton (value?_digit hvalue)).symm
      _ ≤ valueOf ([digit value] ++ rest) := valueOf_le_append [digit value] rest
  have hne := mt (digit_eq_zero_iff hvalue).mpr h
  omega

/-! ## Letter case -/

/-- The digits lie between `0` and `f`. -/
theorem toNat_of_isDigit {c : Char} (h : isDigit c = true) : 0x30 ≤ c.toNat ∧ c.toNat ≤ 0x66 := by
  unfold isDigit value? at h
  split_ifs at h with hdecimal hlower hupper
  · have hbetween : 0x30 ≤ c.toNat ∧ c.toNat ≤ 0x39 := hdecimal
    omega
  · have hbetween : 0x61 ≤ c.toNat ∧ c.toNat ≤ 0x66 := hlower
    omega
  · have hbetween : 0x41 ≤ c.toNat ∧ c.toNat ≤ 0x46 := hupper
    omega
  · cases h

/-- The lower case of a digit is a digit of the same value, and is `0` only for `0`. -/
theorem toLower_of_isDigit {c : Char} (h : isDigit c = true) :
    value? c.toLower = value? c ∧ isLower c.toLower = true ∧ (c.toLower = '0' → c = '0') := by
  have all : ∀ n : Fin 0x67, isDigit (Char.ofNat n.val) = true →
      value? (Char.ofNat n.val).toLower = value? (Char.ofNat n.val) ∧
        isLower (Char.ofNat n.val).toLower = true ∧
        ((Char.ofNat n.val).toLower = '0' → Char.ofNat n.val = '0') := by decide
  have hc := all ⟨c.toNat, Nat.lt_succ_of_le (toNat_of_isDigit h).2⟩
  rw [Char.ofNat_toNat] at hc
  exact hc h

theorem val_toLower {c : Char} (h : c.isUpper = true) :
    c.toLower.val = c.val + ('a'.val - 'A'.val) :=
  congrArg Char.val (dif_pos (of_decide_eq_true h))

theorem toLower_of_not_isUpper {c : Char} (h : c.isUpper = false) : c.toLower = c :=
  dif_neg (of_decide_eq_false h)

/-- A character is determined by its lower case and by whether it is in upper case. -/
theorem eq_of_toLower {c d : Char} (lower : c.toLower = d.toLower) (upper : c.isUpper = d.isUpper) :
    c = d := by
  cases hc : c.isUpper with
  | true =>
      have hval := congrArg Char.val lower
      rw [val_toLower hc, val_toLower (upper ▸ hc)] at hval
      exact Char.ext ((UInt32.add_left_inj _).mp hval)
  | false =>
      rwa [toLower_of_not_isUpper hc, toLower_of_not_isUpper (upper ▸ hc)] at lower

theorem valueOf_map_toLower {text : List Char} (h : ∀ c ∈ text, isDigit c = true) :
    valueOf (text.map Char.toLower) = valueOf text := by
  induction text using List.reverseRecOn with
  | nil => rfl
  | append_singleton front c ih =>
      rw [List.forall_mem_append, List.forall_mem_singleton] at h
      obtain ⟨hfront, hlast⟩ := h
      obtain ⟨value, hvalue⟩ := Option.isSome_iff_exists.mp hlast
      have hlower := (toLower_of_isDigit hlast).1.trans hvalue
      rw [List.map_append, List.map_singleton, valueOf_concat hlower, valueOf_concat hvalue,
        ih hfront]

/-! ## What is written -/

theorem digits_of_lt {n : Nat} (h : n < 16) : digits n = [digit n] := by
  rw [digits, if_pos h]

theorem digits_of_le {n : Nat} (h : 16 ≤ n) : digits n = digits (n / 16) ++ [digit (n % 16)] := by
  rw [digits, if_neg (by omega)]

/-- Reading the written digits of a number gives the number. -/
theorem valueOf_digits (n : Nat) : valueOf (digits n) = n := by
  induction n using Nat.strongRecOn with
  | ind n ih =>
      by_cases hsmall : n < 16
      · rw [digits_of_lt hsmall, valueOf_singleton (value?_digit hsmall)]
      · rw [digits_of_le (by omega), valueOf_concat (value?_digit (Nat.mod_lt n (by omega))),
          ih (n / 16) (by omega), Nat.div_add_mod]

theorem isLower_digits (n : Nat) : ∀ c ∈ digits n, isLower c = true := by
  induction n using Nat.strongRecOn with
  | ind n ih =>
      by_cases hsmall : n < 16
      · rw [digits_of_lt hsmall, List.forall_mem_singleton]
        exact isLower_iff.mpr ⟨n, hsmall, rfl⟩
      · rw [digits_of_le (by omega), List.forall_mem_append, List.forall_mem_singleton]
        exact ⟨ih (n / 16) (by omega), isLower_iff.mpr ⟨n % 16, Nat.mod_lt n (by omega), rfl⟩⟩

theorem head?_digits {n : Nat} (h : 0 < n) : (digits n).head? ≠ some '0' := by
  induction n using Nat.strongRecOn with
  | ind n ih =>
      by_cases hsmall : n < 16
      · rw [digits_of_lt hsmall, List.head?_cons, ne_eq, Option.some.injEq,
          digit_eq_zero_iff hsmall]
        omega
      · rw [digits_of_le (by omega), List.head?_append_of_ne_nil _ (digits_ne_nil (n / 16))]
        exact ih (n / 16) (by omega) (by omega)

/-- A number above zero has a digit at each place whose value is not above the number. -/
theorem lt_length_digits_iff {n : Nat} (h : 0 < n) (place : Nat) :
    place < (digits n).length ↔ 16 ^ place ≤ n := by
  induction place generalizing n with
  | zero =>
      rw [Nat.pow_zero]
      exact iff_of_true (List.length_pos_of_ne_nil (digits_ne_nil n)) h
  | succ place ih =>
      by_cases hsmall : n < 16
      · have hpos : 0 < 16 ^ place := Nat.pow_pos (by omega)
        rw [digits_of_lt hsmall, List.length_singleton, Nat.pow_succ]
        omega
      · rw [digits_of_le (by omega), List.length_append, List.length_singleton,
          Nat.add_lt_add_iff_right, ih (by omega), Nat.le_div_iff_mul_le (by omega), Nat.pow_succ]

theorem length_digits {n k : Nat} (lower : 16 ^ k ≤ n) (upper : n < 16 ^ (k + 1)) :
    (digits n).length = k + 1 := by
  have hpos : 0 < n := Nat.lt_of_lt_of_le (Nat.pow_pos (by omega)) lower
  have hmost := (lt_length_digits_iff hpos k).mpr lower
  have hleast := mt (lt_length_digits_iff hpos (k + 1)).mp (Nat.not_le.mpr upper)
  omega

/-- Digits of lower case, without a zero in front of others, are those written for their value. -/
theorem digits_valueOf {text : List Char} (nonempty : text ≠ [])
    (lower : ∀ c ∈ text, isLower c = true) (first : text = ['0'] ∨ text.head? ≠ some '0') :
    digits (valueOf text) = text := by
  induction text using List.reverseRecOn with
  | nil => exact absurd rfl nonempty
  | append_singleton front c ih =>
      rw [List.forall_mem_append, List.forall_mem_singleton] at lower
      obtain ⟨hfront, hlast⟩ := lower
      obtain ⟨value, hvalue, rfl⟩ := isLower_iff.mp hlast
      rw [valueOf_concat (value?_digit hvalue)]
      cases front with
      | nil =>
          have hvalueOf : 16 * valueOf [] + value = value := Nat.zero_add value
          rw [hvalueOf]
          exact digits_of_lt hvalue
      | cons c rest =>
          have hne : c :: rest ≠ [] := List.cons_ne_nil c rest
          have hhead : (c :: rest).head? ≠ some '0' := by simpa using first
          have hdigits := ih hne hfront (.inr hhead)
          have hpos := valueOf_pos (hfront c List.mem_cons_self) (by simpa using hhead) rest
          rw [digits_of_le (by omega), Nat.mul_add_div (by omega), Nat.mul_add_mod,
            Nat.div_eq_of_lt hvalue, Nat.mod_eq_of_lt hvalue, Nat.add_zero, hdigits]

/-! ## Leading zeros -/

/-- The digits of a number that count: none for zero. -/
def significant (n : Nat) : List Char := if n = 0 then [] else digits n

theorem valueOf_significant (n : Nat) : valueOf (significant n) = n := by
  unfold significant
  split
  · rename_i hzero
    rw [hzero]
    rfl
  · exact valueOf_digits n

theorem significant_inj {m n : Nat} : significant m = significant n ↔ m = n := by
  refine ⟨fun h => ?_, congrArg significant⟩
  rw [← valueOf_significant m, h, valueOf_significant]

theorem lt_length_significant_iff {n place : Nat} :
    place < (significant n).length ↔ 16 ^ place ≤ n := by
  have hplace : 0 < 16 ^ place := Nat.pow_pos (by omega)
  unfold significant
  split
  · rw [List.length_nil]
    omega
  · exact lt_length_digits_iff (by omega) place

theorem valueOf_dropWhile (text : List Char) :
    valueOf (text.dropWhile (· = '0')) = valueOf text := by
  induction text with
  | nil => rfl
  | cons c rest ih =>
      by_cases h : c = '0'
      · rw [List.dropWhile_cons_of_pos (by simpa using h), ih, h]
        rfl
      · rw [List.dropWhile_cons_of_neg (by simpa using h)]

/-- Without the zeros in front, digits are in lower case the significant digits of their value. -/
theorem map_toLower_dropWhile {text : List Char} (h : ∀ c ∈ text, isDigit c = true) :
    (text.dropWhile (· = '0')).map Char.toLower = significant (valueOf text) := by
  have hfirst := List.head?_dropWhile_not (· = '0') text
  have hrest := List.dropWhile_suffix (l := text) (· = '0')
  rw [← valueOf_dropWhile text]
  cases hleft : text.dropWhile (· = '0') with
  | nil => rfl
  | cons c rest =>
      rw [hleft] at hfirst hrest
      have hdigits : ∀ d ∈ c :: rest, isDigit d = true := fun d hd => h d (hrest.subset hd)
      have hlower : ∀ d ∈ (c :: rest).map Char.toLower, isLower d = true :=
        List.forall_mem_map.mpr fun d hd => (toLower_of_isDigit (hdigits d hd)).2.1
      have hne : c.toLower ≠ '0' := by
        intro hzero
        have hc := (toLower_of_isDigit (hdigits c List.mem_cons_self)).2.2 hzero
        simp [hc] at hfirst
      have hpos : 0 < valueOf ((c :: rest).map Char.toLower) :=
        valueOf_pos (hlower _ List.mem_cons_self) hne _
      rw [← valueOf_map_toLower hdigits, significant, if_neg (by omega)]
      exact (digits_valueOf (List.cons_ne_nil _ _) hlower (.inr (by simpa using hne))).symm

end BlockWatch.Hex
