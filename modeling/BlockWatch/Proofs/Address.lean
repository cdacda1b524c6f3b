import BlockWatch.Address
import BlockWatch.Proofs.Hex
import BlockWatch.Text.Blank
import Mathlib.Data.List.DropRight

/-!
# Canonical addresses

Normative source: SPEC_FULL.md, section 8:

    `normalizeAddress("0x0000000012") == "0x12"`; `normalizeAddress("0x12") == "0x12"` (idempotent).

`kept` are the digits that `canonical` keeps.  The canonical spelling is its own canonical spelling
(`canonical_idem`), and it has no blank (`not_blank_canonical`).  It is an address again unless all
digits of the address are zeros (`isValid_canonical_iff`): then none is kept, and `0x` is left,
which `isValid` refuses.

What is proved of watchlists and launches rests on these facts, and `Proofs.Address.Spelling` adds
when two addresses have one canonical spelling.
-/

set_option autoImplicit false

namespace BlockWatch.Address

/-! ## The digits that are kept -/

/-- The digits that the canonical spelling of an address keeps: all but the zeros in front. -/
def kept (address : String) : List Char := (digitsOf address.toList).dropWhile (· = '0')

theorem kept_suffix (address : String) : kept address <:+ digitsOf address.toList :=
  List.dropWhile_suffix _

theorem toList_canonical (address : String) :
    (canonical address).toList = '0' :: 'x' :: kept address :=
  String.toList_ofList

theorem digitsOf_canonical (address : String) :
    digitsOf (canonical address).toList = kept address := by
  rw [toList_canonical, digitsOf]

/-- The canonical spelling is idempotent: what it drops in front is not in front any more. -/
theorem canonical_idem (address : String) :
    canonical (canonical address) = canonical address := by
  rw [← String.toList_inj, toList_canonical, toList_canonical, kept, digitsOf_canonical, kept,
    List.dropWhile_idempotent]

theorem head?_canonical (address : String) : (canonical address).toList.head? = some '0' := by
  rw [toList_canonical]
  rfl

/-- An address all of whose digits are zeros. -/
def IsZero (address : String) : Prop := ∀ c ∈ digitsOf address.toList, c = '0'

instance (address : String) : Decidable (IsZero address) :=
  List.decidableBAll (· = '0') (digitsOf address.toList)

theorem kept_eq_nil_iff {address : String} : kept address = [] ↔ IsZero address := by
  simp [kept, IsZero, List.dropWhile_eq_nil_iff]

/-! ## Addresses -/

theorem isValid_iff {text : String} :
    isValid text = true ↔ text.toList = '0' :: 'x' :: digitsOf text.toList ∧
      digitsOf text.toList ≠ [] ∧ (digitsOf text.toList).length ≤ maxDigits ∧
      ∀ c ∈ digitsOf text.toList, Hex.isDigit c = true := by
  unfold isValid
  split
  · rename_i digits htext
    simp [htext, digitsOf, and_assoc]
  · rename_i hother
    simp only [Bool.false_eq_true, false_iff]
    rintro ⟨htext, -⟩
    exact hother _ htext

/-- The canonical spelling of an address is an address unless nothing is left of it. -/
theorem isValid_canonical_iff {address : String} (valid : isValid address = true) :
    isValid (canonical address) = true ↔ ¬ IsZero address := by
  obtain ⟨-, -, hlength, hdigits⟩ := isValid_iff.mp valid
  have hkept := kept_suffix address
  rw [isValid_iff, digitsOf_canonical, ← kept_eq_nil_iff]
  constructor
  · rintro ⟨-, hsome, -⟩
    exact hsome
  · intro hsome
    exact ⟨toList_canonical address, hsome, hkept.length_le.trans hlength,
      fun c hc => hdigits c (hkept.subset hc)⟩

/-! ## Blanks -/

/-- Digits lie between the space and the blanks beyond ASCII. -/
theorem not_blank_of_isDigit {c : Char} (h : Hex.isDigit c = true) : Text.isBlank c = false := by
  have hrange := Hex.toNat_of_isDigit h
  simp only [Text.isBlank, Text.blankRanges, List.any_eq_false, Bool.and_eq_true,
    decide_eq_true_eq, List.forall_mem_cons, List.not_mem_nil, false_implies, implies_true,
    and_true]
  omega

theorem not_blank_canonical {address : String} (valid : isValid address = true) :
    ∀ c ∈ (canonical address).toList, Text.isBlank c = false := by
  obtain ⟨-, -, -, hdigits⟩ := isValid_iff.mp valid
  rw [toList_canonical, List.forall_mem_cons, List.forall_mem_cons]
  exact ⟨by decide, by decide, fun c hc =>
    not_blank_of_isDigit (hdigits c ((kept_suffix address).subset hc))⟩

end BlockWatch.Address
