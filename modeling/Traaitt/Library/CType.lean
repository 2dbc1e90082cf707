import Mathlib.Order.Basic

/-! The character classes of `<cctype>` in the C locale that the parsers use. -/

namespace CType

/-- `isspace` in the C locale: space, and tab to carriage return. -/
def isSpace (c : Char) : Bool :=
  c = ' ' || ('\t' ≤ c && c ≤ '\r')

theorem isSpace_of_isDigit {c : Char} (hc : c.isDigit) : isSpace c = false := by
  have hdigit : 48 ≤ c.toNat := (Char.isDigit_iff_toNat.1 hc).1
  simp only [isSpace, Bool.or_eq_false_iff, decide_eq_false_iff_not, Bool.and_eq_false_iff]
  refine ⟨fun h => ?_, Or.inr fun h => ?_⟩
  · rw [h] at hdigit
    exact absurd hdigit (by decide)
  · rw [Char.le_def, UInt32.le_iff_toNat_le] at h
    have hspace : c.toNat ≤ 13 := h
    omega

end CType
