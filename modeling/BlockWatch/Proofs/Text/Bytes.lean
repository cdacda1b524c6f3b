/-!
# Texts as bytes

Normative source: SPEC_FULL.md, section 10.4, for files that are read, and section 10.5, for bodies.

The UTF-8 encoding of the standard library in the form in which watchlists and responses use it:
bytes encode at most one text, and the bytes of a text encode just that one.
-/

set_option autoImplicit false

namespace BlockWatch.Text

/-- The bytes of a text. -/
def bytes (text : String) : List UInt8 := text.toUTF8.data.toList

/-- The text that bytes encode is the one with these bytes. -/
theorem fromUTF8?_eq_some_iff {content : List UInt8} {text : String} :
    String.fromUTF8? ⟨content.toArray⟩ = some text ↔ content = bytes text := by
  unfold String.fromUTF8? bytes
  constructor
  · intro h
    split at h
    · cases h
      rfl
    · cases h
  · rintro rfl
    exact dif_pos text.isValidUTF8

/-- Encoding a text and decoding the bytes gives the text. -/
theorem fromUTF8?_bytes (text : String) :
    String.fromUTF8? ⟨(bytes text).toArray⟩ = some text :=
  fromUTF8?_eq_some_iff.mpr rfl

theorem bytes_inj {text other : String} : bytes text = bytes other ↔ text = other := by
  rw [← fromUTF8?_eq_some_iff, fromUTF8?_bytes, Option.some.injEq, eq_comm]

end BlockWatch.Text
