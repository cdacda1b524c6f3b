import BlockWatch.Proofs.Address
import Mathlib.Data.List.GetD

/-!
# Spellings of one address

Normative source: SPEC_FULL.md, section 3:

    **Address**: a string; canonical form strips the `0x` prefix, strips all leading `0` characters
    from the remaining digits, and re-prepends `0x`. Canonicalization does not fold letter case.

An address stands for a number (`number`).  The digits that `canonical` keeps are, in lower case,
the digits of that number, so two addresses have one canonical spelling exactly if they stand for
one number and their kept digits are in one case.  `SameCase` says the latter without `canonical`:
it compares the digits at the places that are not above the number.

`one_spelling_each` is the result for all texts and all pairs of addresses.  Among addresses in
lower case the canonical spelling is that of the number: its digits, none for zero, and no address
that stands for the number is shorter.
-/

set_option autoImplicit false

namespace BlockWatch.Address

/-! ## Numbers and letter case -/

/-- The number that the digits of an address stand for. -/
def number (address : String) : Nat := Hex.valueOf (digitsOf address.toList)

/-- Whether the digit at a place, counted from the last one, is a letter in upper case. -/
def isUpperAt (address : String) (place : Nat) : Bool :=
  ((digitsOf address.toList).map Char.isUpper).reverse.getD place false

/-- Whether two addresses write every digit that counts in the same case.  The digits that count are
those at places whose value is not above the number; in front of them there are zeros only. -/
def SameCase (a b : String) : Prop :=
  ∀ place, 16 ^ place ≤ number a → isUpperAt a place = isUpperAt b place

/-- Whether no letter is in upper case. -/
def IsLowercase (text : String) : Prop := ∀ c ∈ text.toList, c.isUpper = false

instance (text : String) : Decidable (IsLowercase text) :=
  List.decidableBAll (fun c : Char => c.isUpper = false) text.toList

/-! ## The digits that are kept -/

theorem canonical_inj {a b : String} : canonical a = canonical b ↔ kept a = kept b := by
  rw [← String.toList_inj, toList_canonical, toList_canonical]
  simp

/-- The kept digits of an address, in lower case, are the digits of its number. -/
theorem map_toLower_kept {address : String} (valid : isValid address = true) :
    (kept address).map Char.toLower = Hex.significant (number address) := by
  obtain ⟨-, -, -, hdigits⟩ := isValid_iff.mp valid
  exact Hex.map_toLower_dropWhile hdigits

theorem length_kept {address : String} (valid : isValid address = true) :
    (kept address).length = (Hex.significant (number address)).length := by
  rw [← map_toLower_kept valid, List.length_map]

theorem lt_length_kept_iff {address : String} (valid : isValid address = true) {place : Nat} :
    place < (kept address).length ↔ 16 ^ place ≤ number address := by
  rw [length_kept valid, Hex.lt_length_significant_iff]

theorem isUpperAt_of_lt {address : String} {place : Nat} (h : place < (kept address).length) :
    isUpperAt address place = ((kept address).map Char.isUpper).reverse.getD place false := by
  obtain ⟨zeros, hzeros⟩ := kept_suffix address
  have hplace : place < ((kept address).map Char.isUpper).reverse.length := by simpa using h
  rw [isUpperAt, ← hzeros, List.map_append, List.reverse_append]
  exact List.getD_append _ _ _ _ hplace

/-- Addresses of one number have the same case exactly if their kept digits have it. -/
theorem sameCase_iff {a b : String} (ha : isValid a = true) (hb : isValid b = true)
    (one : number a = number b) :
    SameCase a b ↔ (kept a).map Char.isUpper = (kept b).map Char.isUpper := by
  have hlength : (kept a).length = (kept b).length := by
    rw [length_kept ha, length_kept hb, one]
  rw [← List.reverse_inj]
  constructor
  · intro h
    refine List.ext_getElem (by simpa using hlength) fun place hplace hother => ?_
    have hlt : place < (kept a).length := by simpa using hplace
    have hcase := h place ((lt_length_kept_iff ha).mp hlt)
    rwa [isUpperAt_of_lt hlt, isUpperAt_of_lt (hlength ▸ hlt), List.getD_eq_getElem _ _ hplace,
      List.getD_eq_getElem _ _ hother] at hcase
  · intro h place hplace
    have hlt := (lt_length_kept_iff ha).mpr hplace
    rw [isUpperAt_of_lt hlt, isUpperAt_of_lt (hlength ▸ hlt), h]

/-! ## One canonical spelling -/

/-- A text is determined by its lower case and by which of its letters are in upper case. -/
theorem eq_iff_letters {s t : List Char} :
    s = t ↔ s.map Char.toLower = t.map Char.toLower ∧ s.map Char.isUpper = t.map Char.isUpper := by
  refine ⟨fun h => h ▸ ⟨rfl, rfl⟩, fun ⟨hlower, hupper⟩ => ?_⟩
  have hlength : s.length = t.length := by simpa using congrArg List.length hlower
  refine List.ext_getElem hlength fun place hs ht => Hex.eq_of_toLower ?_ ?_
  · simpa [hs, ht] using congrArg (·[place]?) hlower
  · simpa [hs, ht] using congrArg (·[place]?) hupper

/-- Addresses have one canonical spelling where they stand for one number in one letter case. -/
theorem canonical_eq_canonical_iff {a b : String} (ha : isValid a = true)
    (hb : isValid b = true) :
    canonical a = canonical b ↔ number a = number b ∧ SameCase a b := by
  have hnumber : (kept a).map Char.toLower = (kept b).map Char.toLower ↔
      number a = number b := by
    rw [map_toLower_kept ha, map_toLower_kept hb, Hex.significant_inj]
  rw [canonical_inj, eq_iff_letters, hnumber]
  exact and_congr_right fun one => (sameCase_iff ha hb one).symm

/-- No address of a number is shorter than the canonical spelling of another one. -/
theorem length_canonical_le {a b : String} (ha : isValid a = true) (hb : isValid b = true)
    (one : number a = number b) : (canonical a).length ≤ b.length := by
  obtain ⟨htext, -⟩ := isValid_iff.mp hb
  have hkept : (kept a).length ≤ (digitsOf b.toList).length := by
    rw [length_kept ha, one, ← length_kept hb]
    exact (kept_suffix b).length_le
  rw [← String.length_toList, ← String.length_toList, toList_canonical, htext]
  simpa using hkept

theorem canonical_of_isLowercase {address : String} (valid : isValid address = true)
    (lower : IsLowercase address) :
    canonical address = String.ofList ('0' :: 'x' :: Hex.significant (number address)) := by
  obtain ⟨htext, -⟩ := isValid_iff.mp valid
  have hletters : ∀ c ∈ kept address, c.isUpper = false := by
    rw [IsLowercase, htext, List.forall_mem_cons, List.forall_mem_cons] at lower
    exact fun c hc => lower.2.2 c ((kept_suffix address).subset hc)
  have hkept : (kept address).map Char.toLower = kept address :=
    (List.map_congr_left fun c hc => Hex.toLower_of_not_isUpper (hletters c hc)).trans
      (List.map_id _)
  rw [← String.toList_inj, toList_canonical, String.toList_ofList, ← map_toLower_kept valid,
    hkept]

/-- The canonical spelling is idempotent.  Two addresses have one canonical spelling exactly if they
stand for one number and write every digit that counts in one case, and then it is not longer than
either.  For addresses in lower case the number alone decides, and the canonical spelling is its
digits, none for zero. -/
theorem one_spelling_each :
    (∀ text, canonical (canonical text) = canonical text) ∧
      ∀ a b, isValid a = true → isValid b = true →
        (canonical a = canonical b ↔ number a = number b ∧ SameCase a b) ∧
          (number a = number b → (canonical a).length ≤ min a.length b.length) ∧
          (IsLowercase a → IsLowercase b →
            (canonical a = canonical b ↔ number a = number b) ∧
              canonical a = String.ofList ('0' :: 'x' :: Hex.significant (number a))) := by
  refine ⟨canonical_idem, fun a b ha hb => ⟨canonical_eq_canonical_iff ha hb, ?_, ?_⟩⟩
  · intro one
    exact Nat.le_min.mpr ⟨length_canonical_le ha ha rfl, length_canonical_le ha hb one⟩
  · intro hlower hlower'
    have hspelling := canonical_of_isLowercase ha hlower
    refine ⟨?_, hspelling⟩
    rw [hspelling, canonical_of_isLowercase hb hlower', String.ofList_inj]
    simpa using Hex.significant_inj

/-- Two spellings of one number in lower case, and one with a letter in upper case. -/
theorem one_spelling_each_letterCase :
    isValid "0x00ab" = true ∧ isValid "0x0ab" = true ∧ isValid "0x0Ab" = true ∧
      canonical "0x00ab" = canonical "0x0ab" ∧ (canonical "0x00ab").length ≤ 5 ∧
      canonical "0x00ab" = String.ofList ('0' :: 'x' :: Hex.significant 0xab) ∧
      canonical "0x0ab" ≠ canonical "0x0Ab" := by
  obtain ⟨-, hpair⟩ := one_spelling_each
  have hlong : isValid "0x00ab" = true := by decide
  have hshort : isValid "0x0ab" = true := by decide
  have hmixed : isValid "0x0Ab" = true := by decide
  have hvalue : number "0x00ab" = 0xab := by decide
  have hnumber : number "0x00ab" = number "0x0ab" := by decide
  obtain ⟨-, hlength, hlowercase⟩ := hpair _ _ hlong hshort
  obtain ⟨hiff, hspelling⟩ := hlowercase (by decide) (by decide)
  refine ⟨hlong, hshort, hmixed, hiff.mpr hnumber, ?_, ?_, ?_⟩
  · exact (hlength hnumber).trans (Nat.min_le_right _ _)
  · rw [hspelling, hvalue]
  · -- the digits differ in case at the place of the sixteens
    intro hone
    obtain ⟨-, hcase⟩ := (hpair _ _ hshort hmixed).1.mp hone
    have hplace : 16 ^ 1 ≤ number "0x0ab" := by decide
    have hupper : isUpperAt "0x0ab" 1 ≠ isUpperAt "0x0Ab" 1 := by decide
    exact hupper (hcase 1 hplace)

end BlockWatch.Address
