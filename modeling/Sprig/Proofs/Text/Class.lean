import Mathlib.Tactic.Common
import Sprig.Text.Blank

/-!
# Classes of code units

The classes as ranges of numbers, and which of them are disjoint: no unit of an integer or of a
name is a blank or a parenthesis.
-/

namespace Sprig.CodeUnit

variable {u v : CodeUnit} {p : CodeUnit → Bool}

/-- Units that a class tells apart. -/
lemma ne_of_holds (hu : p u) (hv : p v = false) : u ≠ v := by
  rintro rfl
  rw [hu] at hv
  cases hv

lemma isDigit_iff : u.isDigit ↔ 0x30 ≤ u.toNat ∧ u.toNat ≤ 0x39 := by
  simp [isDigit, UInt16.le_iff_toNat_le]

lemma isLetter_iff :
    u.isLetter ↔ (0x61 ≤ u.toNat ∧ u.toNat ≤ 0x7A) ∨ (0x41 ≤ u.toNat ∧ u.toNat ≤ 0x5A) := by
  simp [isLetter, UInt16.le_iff_toNat_le]

lemma isAlphanumeric_iff : u.isAlphanumeric ↔ u.isLetter ∨ u.isDigit := by
  simp [isAlphanumeric]

lemma isAlphanumeric_of_isDigit (h : u.isDigit) : u.isAlphanumeric :=
  isAlphanumeric_iff.mpr (Or.inr h)

lemma isDigit_of_isLetter (h : u.isLetter) : u.isDigit = false := by
  rw [isLetter_iff] at h
  rw [← Bool.not_eq_true, isDigit_iff]
  omega

/-- Of the units of tokens only the space is blank. -/
lemma isBlank_of_lt (hlow : 0x20 < u.toNat) (hhigh : u.toNat < 0xA0) : u.isBlank = false := by
  by_contra hblank
  simp only [isBlank, Bool.not_eq_false, Bool.or_eq_true, Bool.and_eq_true, decide_eq_true_eq,
    beq_iff_eq, UInt16.le_iff_toNat_le, ← UInt16.toNat_inj] at hblank
  simp only [UInt16.reduceToNat] at hblank
  omega

lemma isBlank_of_isAlphanumeric (h : u.isAlphanumeric) : u.isBlank = false := by
  rw [isAlphanumeric_iff, isLetter_iff, isDigit_iff] at h
  exact isBlank_of_lt (by omega) (by omega)

end Sprig.CodeUnit
