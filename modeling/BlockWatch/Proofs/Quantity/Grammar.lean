import BlockWatch.Proofs.Hex
import BlockWatch.Quantity

/-!
# The grammar of quantities

Normative source: SPEC_FULL.md, section 3:

    Decoding (`strToHex`) fails with `BadFormat` if the prefix is absent; otherwise parses the
    remainder as base-16, fitting a 64-bit signed integer.

A quantity is `0x` and a numeral: a sign, which may be left out, and at least one hexadecimal digit
of either case (`Numeral`).  It is read exactly where its value has 64 bits.  What is refused, and
why, is determined by the first character with a fault (`fault?`): one that is no digit, or a digit
that takes the value out of range.

`decode_by_grammar` is the result for texts of any length, with the number or the exact failure.
`readDigits_eq_ok_iff` and `readDigits_eq_error_iff` carry it, by induction on the digits with the
digits read so far as a parameter.
-/

set_option autoImplicit false

namespace BlockWatch.Quantity

/-! ## Numerals -/

/-- The value of digits behind a sign. -/
def Sign.value (sign : Sign) (digits : List Char) : Int :=
  match sign with
  | .plus => Hex.valueOf digits
  | .minus => -Hex.valueOf digits

/-- How a sign is written: plus may be left out. -/
def Sign.spellings : Sign → List (List Char)
  | .plus => [[], ['+']]
  | .minus => [['-']]

/-- A text is a sign and at least one digit, with this value. -/
def Numeral (text : List Char) (n : Int) : Prop :=
  ∃ (sign : Sign) (front digits : List Char), front ∈ sign.spellings ∧ text = front ++ digits ∧
    digits ≠ [] ∧ (∀ c ∈ digits, Hex.isDigit c = true) ∧ sign.value digits = n

/-- The sign in front of a text, and what comes after it. -/
def splitSign : List Char → Sign × List Char
  | '+' :: rest => (.plus, rest)
  | '-' :: rest => (.minus, rest)
  | text => (.plus, text)

theorem splitSign_cons {c : Char} (hplus : c ≠ '+') (hminus : c ≠ '-') (rest : List Char) :
    splitSign (c :: rest) = (.plus, c :: rest) := by
  unfold splitSign
  split <;> simp_all

theorem splitSign_of_isDigit {c : Char} (h : Hex.isDigit c = true) (rest : List Char) :
    splitSign (c :: rest) = (.plus, c :: rest) := by
  refine splitSign_cons ?_ ?_ rest
  · rintro rfl
    exact absurd h (by decide)
  · rintro rfl
    exact absurd h (by decide)

theorem exists_spelling (text : List Char) :
    ∃ front ∈ (splitSign text).1.spellings, text = front ++ (splitSign text).2 := by
  unfold splitSign
  split
  · exact ⟨['+'], by simp [Sign.spellings], rfl⟩
  · exact ⟨['-'], by simp [Sign.spellings], rfl⟩
  · exact ⟨[], by simp [Sign.spellings], rfl⟩

/-- A numeral by its sign and its digits. -/
theorem numeral_iff {text : List Char} {n : Int} :
    Numeral text n ↔ (splitSign text).2 ≠ [] ∧
      (∀ c ∈ (splitSign text).2, Hex.isDigit c = true) ∧
      (splitSign text).1.value (splitSign text).2 = n := by
  constructor
  · rintro ⟨sign, front, digits, hfront, rfl, hsome, hdigits, hvalue⟩
    have hsplit : splitSign (front ++ digits) = (sign, digits) := by
      cases sign with
      | plus =>
          obtain rfl | rfl : front = [] ∨ front = ['+'] := by simpa [Sign.spellings] using hfront
          · obtain ⟨c, rest, rfl⟩ := List.exists_cons_of_ne_nil hsome
            exact splitSign_of_isDigit (hdigits c List.mem_cons_self) rest
          · rfl
      | minus =>
          obtain rfl : front = ['-'] := by simpa [Sign.spellings] using hfront
          rfl
    rw [hsplit]
    exact ⟨hsome, hdigits, hvalue⟩
  · rintro ⟨hsome, hdigits, hvalue⟩
    obtain ⟨front, hfront, htext⟩ := exists_spelling text
    exact ⟨_, front, _, hfront, htext, hsome, hdigits, hvalue⟩

/-! ## Faults -/

theorem inRange_iff {n : Int} : inRange n = true ↔ -2 ^ 63 ≤ n ∧ n ≤ 2 ^ 63 - 1 := by
  simp only [inRange, Bool.and_eq_true, decide_eq_true_eq]
  unfold minValue maxValue
  omega

theorem inRange_of_append {sign : Sign} {read more : List Char}
    (h : inRange (sign.value (read ++ more)) = true) : inRange (sign.value read) = true := by
  have hle := Hex.valueOf_le_append read more
  rw [inRange_iff] at h ⊢
  cases sign with
  | plus =>
      simp only [Sign.value] at h ⊢
      omega
  | minus =>
      simp only [Sign.value] at h ⊢
      omega

/-- What is wrong with a character that comes after digits. -/
def fault? (sign : Sign) (read : List Char) (c : Char) : Option DigitFault :=
  if Hex.isDigit c = false then some .invalidDigit
  else if inRange (sign.value (read ++ [c])) then none
  else some sign.overflow

theorem fault?_of_inRange {sign : Sign} {read : List Char}
    (digits : ∀ c ∈ read, Hex.isDigit c = true) (range : inRange (sign.value read) = true)
    {earlier later : List Char} {d : Char} (h : read = earlier ++ d :: later) :
    fault? sign earlier d = none := by
  subst h
  have hdigit : Hex.isDigit d = true := digits d (by simp)
  rw [List.append_cons] at range
  simp [fault?, hdigit, inRange_of_append range]

/-- Some character of a text has a fault, and none before it has one. -/
def StopsWith (sign : Sign) (text : List Char) (fault : DigitFault) : Prop :=
  ∃ read c rest, text = read ++ c :: rest ∧ fault? sign read c = some fault ∧
    ∀ earlier d later, read = earlier ++ d :: later → fault? sign earlier d = none

theorem readDigits_cons (sign : Sign) (read : List Char) (c : Char) (rest : List Char) :
    readDigits sign (sign.value read) (c :: rest) =
      match fault? sign read c with
      | some fault => .error fault
      | none => readDigits sign (sign.value (read ++ [c])) rest := by
  rw [readDigits, fault?, Hex.isDigit]
  cases hdigit : Hex.value? c with
  | none => rfl
  | some digit =>
      have hnext : sign.extend (sign.value read) digit = sign.value (read ++ [c]) := by
        cases sign with
        | plus =>
            simp only [Sign.extend, Sign.value, Hex.valueOf_concat hdigit]
            omega
        | minus =>
            simp only [Sign.extend, Sign.value, Hex.valueOf_concat hdigit]
            omega
      simp only [hnext, Option.isSome_some, Bool.true_eq_false, if_false]
      cases inRange (sign.value (read ++ [c])) <;> rfl

/-- Digits are read exactly if they are digits with a value in range. -/
theorem readDigits_eq_ok_iff {sign : Sign} {n : Int} (digits : List Char) :
    ∀ {read : List Char}, inRange (sign.value read) = true →
      (readDigits sign (sign.value read) digits = .ok n ↔
        (∀ c ∈ digits, Hex.isDigit c = true) ∧ sign.value (read ++ digits) = n ∧
          inRange n = true) := by
  induction digits with
  | nil =>
      intro read hrange
      rw [readDigits, Except.ok.injEq, List.append_nil]
      constructor
      · rintro rfl
        exact ⟨by simp, rfl, hrange⟩
      · exact fun h => h.2.1
  | cons c rest ih =>
      intro read _
      rw [readDigits_cons, List.forall_mem_cons, List.append_cons read c rest]
      by_cases hdigit : Hex.isDigit c = true
      · by_cases hnext : inRange (sign.value (read ++ [c])) = true
        · have hfault : fault? sign read c = none := by simp [fault?, hdigit, hnext]
          simp only [hfault, ih hnext, hdigit, true_and]
        · have hfault : fault? sign read c = some sign.overflow := by simp [fault?, hdigit, hnext]
          simp only [hfault, reduceCtorEq, false_iff]
          rintro ⟨-, rfl, hrange⟩
          exact hnext (inRange_of_append hrange)
      · have hfault : fault? sign read c = some .invalidDigit := by simp [fault?, hdigit]
        simp only [hfault, reduceCtorEq, false_iff]
        exact fun h => hdigit h.1.1

/-- The same of a text that comes after digits which were read: some character of it has a fault,
and none before it has one. -/
def StopsAfter (sign : Sign) (read text : List Char) (fault : DigitFault) : Prop :=
  ∃ before c after, text = before ++ c :: after ∧ fault? sign (read ++ before) c = some fault ∧
    ∀ earlier d later, before = earlier ++ d :: later → fault? sign (read ++ earlier) d = none

theorem stopsAfter_nil_iff {sign : Sign} {text : List Char} {fault : DigitFault} :
    StopsAfter sign [] text fault ↔ StopsWith sign text fault := by
  simp only [StopsAfter, StopsWith, List.nil_append]

theorem stopsAfter_cons_of_some {sign : Sign} {read rest : List Char} {c : Char}
    {present fault : DigitFault} (h : fault? sign read c = some present) :
    StopsAfter sign read (c :: rest) fault ↔ present = fault := by
  constructor
  · rintro ⟨before, d, after, htext, hstop, hearlier⟩
    cases before with
    | nil =>
        obtain ⟨rfl, rfl⟩ := List.cons.inj htext
        rw [List.append_nil, h] at hstop
        exact Option.some.inj hstop
    | cons first before =>
        obtain ⟨rfl, -⟩ := List.cons.inj htext
        have hnone := hearlier [] c before rfl
        rw [List.append_nil, h] at hnone
        cases hnone
  · rintro rfl
    exact ⟨[], c, rest, rfl, by rw [List.append_nil, h], by simp⟩

theorem stopsAfter_cons_of_none {sign : Sign} {read rest : List Char} {c : Char}
    {fault : DigitFault} (h : fault? sign read c = none) :
    StopsAfter sign read (c :: rest) fault ↔ StopsAfter sign (read ++ [c]) rest fault := by
  constructor
  · rintro ⟨before, d, after, htext, hstop, hearlier⟩
    cases before with
    | nil =>
        obtain ⟨rfl, -⟩ := List.cons.inj htext
        rw [List.append_nil, h] at hstop
        cases hstop
    | cons first before =>
        obtain ⟨rfl, rfl⟩ := List.cons.inj htext
        rw [List.append_cons] at hstop
        refine ⟨before, d, after, rfl, hstop, fun earlier e later hbefore => ?_⟩
        rw [← List.append_cons]
        exact hearlier (c :: earlier) e later (congrArg (c :: ·) hbefore)
  · rintro ⟨before, d, after, rfl, hstop, hearlier⟩
    rw [← List.append_cons] at hstop
    refine ⟨c :: before, d, after, rfl, hstop, fun earlier e later hbefore => ?_⟩
    cases earlier with
    | nil =>
        obtain ⟨rfl, -⟩ := List.cons.inj hbefore
        rw [List.append_nil, h]
    | cons first earlier =>
        obtain ⟨rfl, hrest⟩ := List.cons.inj hbefore
        rw [List.append_cons]
        exact hearlier earlier e later hrest

/-- The first fault decides why digits are refused. -/
theorem readDigits_eq_error_iff {sign : Sign} {fault : DigitFault} (digits : List Char) :
    ∀ read : List Char, readDigits sign (sign.value read) digits = .error fault ↔
      StopsAfter sign read digits fault := by
  induction digits with
  | nil => simp [readDigits, StopsAfter]
  | cons c rest ih =>
      intro read
      rw [readDigits_cons]
      cases hfault : fault? sign read c with
      | some present => rw [stopsAfter_cons_of_some hfault, Except.error.injEq]
      | none => rw [stopsAfter_cons_of_none hfault, ih]

/-! ## Quantities -/

/-- Why a text is no numeral with a value in range: there is nothing, there is a sign alone, or the
first character with a fault decides. -/
def Refused (text : List Char) (fault : DigitFault) : Prop :=
  text = [] ∧ fault = .empty ∨
  (text = ['+'] ∨ text = ['-']) ∧ fault = .invalidDigit ∨
  StopsWith (splitSign text).1 (splitSign text).2 fault

theorem Sign.value_nil (sign : Sign) : sign.value [] = 0 := by
  cases sign <;> rfl

theorem readSigned_eq (text : List Char) :
    readSigned text =
      if text = [] then .error .empty
      else if (splitSign text).2 = [] then .error .invalidDigit
      else readDigits (splitSign text).1 ((splitSign text).1.value []) (splitSign text).2 := by
  rw [Sign.value_nil]
  cases text with
  | nil => rfl
  | cons c rest =>
      rw [if_neg (List.cons_ne_nil c rest)]
      by_cases hplus : c = '+'
      · subst hplus
        cases rest <;> rfl
      · by_cases hminus : c = '-'
        · subst hminus
          cases rest <;> rfl
        · rw [splitSign_cons hplus hminus, if_neg (List.cons_ne_nil c rest)]
          unfold readSigned
          split <;> simp_all

theorem splitSign_eq_nil_iff {text : List Char} :
    (splitSign text).2 = [] ↔ text = [] ∨ text = ['+'] ∨ text = ['-'] := by
  cases text with
  | nil => simp [splitSign]
  | cons c rest =>
      by_cases hplus : c = '+'
      · simp [hplus, splitSign]
      · by_cases hminus : c = '-'
        · simp [hminus, splitSign]
        · simp [splitSign_cons hplus hminus, hplus, hminus]

/-- Exactly the numerals in range are read. -/
theorem readSigned_eq_ok_iff {text : List Char} {n : Int} :
    readSigned text = .ok n ↔ Numeral text n ∧ inRange n = true := by
  have hzero : inRange ((splitSign text).1.value []) = true := by
    rw [Sign.value_nil]
    decide
  rw [readSigned_eq, numeral_iff]
  by_cases hempty : text = []
  · simp [hempty, splitSign]
  · rw [if_neg hempty]
    by_cases halone : (splitSign text).2 = []
    · simp [halone]
    · rw [if_neg halone, readDigits_eq_ok_iff _ hzero, List.nil_append]
      simp only [ne_eq, halone, not_false_eq_true, true_and, and_assoc]

theorem readSigned_eq_error_iff {text : List Char} {fault : DigitFault} :
    readSigned text = .error fault ↔ Refused text fault := by
  rw [readSigned_eq, Refused]
  by_cases hempty : text = []
  · subst hempty
    simp [splitSign, StopsWith, eq_comm]
  · rw [if_neg hempty]
    by_cases halone : (splitSign text).2 = []
    · have hlone := (splitSign_eq_nil_iff.mp halone).resolve_left hempty
      simp [halone, hempty, hlone, StopsWith, eq_comm]
    · have hlone : ¬ (text = ['+'] ∨ text = ['-']) := fun h =>
        halone (splitSign_eq_nil_iff.mpr (.inr h))
      rw [if_neg halone, readDigits_eq_error_iff, stopsAfter_nil_iff]
      simp only [hempty, hlone, false_and, false_or]

theorem decode_of_front {text : String} {rest : List Char}
    (h : text.toList = '0' :: 'x' :: rest) :
    decode text =
      match readSigned rest with
      | .ok n => .ok n
      | .error fault => .error (.invalidHex text fault) := by
  rw [decode, h]
  rfl

theorem decode_of_no_front {text : String} (h : ¬ ['0', 'x'] <+: text.toList) :
    decode text = .error (.badFormat text) := by
  unfold decode
  split
  · rename_i rest hrest
    exact absurd ⟨rest, hrest.symm⟩ h
  · rfl

/-- Quantities are `0x` and a numeral with a value in range. -/
theorem decode_eq_ok_iff {text : String} {n : Int} :
    decode text = .ok n ↔
      ∃ rest, text.toList = '0' :: 'x' :: rest ∧ Numeral rest n ∧ inRange n = true := by
  by_cases hfront : ['0', 'x'] <+: text.toList
  · obtain ⟨rest, hrest⟩ := hfront
    have htext : text.toList = '0' :: 'x' :: rest := hrest.symm
    simp only [decode_of_front htext, htext, List.cons.injEq, true_and, exists_eq_left',
      ← readSigned_eq_ok_iff]
    cases readSigned rest <;> simp
  · rw [decode_of_no_front hfront]
    simp only [reduceCtorEq, false_iff]
    rintro ⟨rest, hrest, -⟩
    exact hfront ⟨rest, hrest.symm⟩

/-- A text that does not begin with `0x` has a bad format.  Behind `0x` the numerals of 64 bits are
read, and any other text is refused for the fault that comes first. -/
theorem decode_by_grammar (text : String) :
    (decode text = .error (.badFormat text) ↔ ¬ ['0', 'x'] <+: text.toList) ∧
      ∀ rest, text.toList = '0' :: 'x' :: rest →
        (∀ n, decode text = .ok n ↔ Numeral rest n ∧ -2 ^ 63 ≤ n ∧ n ≤ 2 ^ 63 - 1) ∧
        ((¬ ∃ n, Numeral rest n ∧ -2 ^ 63 ≤ n ∧ n ≤ 2 ^ 63 - 1) →
          ∃ fault, decode text = .error (.invalidHex text fault)) ∧
        ∀ failure, decode text = .error failure ↔
          ∃ fault, failure = .invalidHex text fault ∧ Refused rest fault := by
  refine ⟨⟨?_, decode_of_no_front⟩, ?_⟩
  · rintro h ⟨rest, hrest⟩
    rw [decode_of_front hrest.symm] at h
    cases hread : readSigned rest <;> simp [hread] at h
  · intro rest hrest
    simp only [← inRange_iff, ← readSigned_eq_ok_iff, ← readSigned_eq_error_iff,
      decode_of_front hrest]
    cases hread : readSigned rest with
    | ok n => simp
    | error fault => simp [eq_comm]

/-- The sixteenth digit takes the value out of range, before the letter that is no digit comes. -/
theorem decode_by_grammar_overflow :
    decode "0x8000000000000000z" = .error (.invalidHex "0x8000000000000000z" .tooLarge) ∧
      Refused "8000000000000000z".toList .tooLarge := by
  have hdecode :
      decode "0x8000000000000000z" = .error (.invalidHex "0x8000000000000000z" .tooLarge) := by
    decide
  obtain ⟨fault, hfault, hrefused⟩ :=
    (((decode_by_grammar "0x8000000000000000z").2 "8000000000000000z".toList rfl).2.2 _).mp hdecode
  obtain rfl := (Failure.invalidHex.inj hfault).2
  exact ⟨hdecode, hrefused⟩

end BlockWatch.Quantity
