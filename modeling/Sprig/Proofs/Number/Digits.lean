import Sprig.Number.Decimal
import Sprig.Proofs.Token.Lexeme

/-!
# Numbers in decimal digits

The digits of a number write that number, and the first of them is zero only if there is no other.
-/

namespace Sprig

/-- The digit of a number below ten. -/
def CodeUnit.ofDigit (d : Nat) : CodeUnit := (0x30 + d).toUInt16

namespace CodeUnit

variable {d : Nat}

lemma toNat_ofDigit (h : d < 10) : (ofDigit d).toNat = 0x30 + d := by
  have hlt : 0x30 + d < 2 ^ 16 := by omega
  simpa [ofDigit] using hlt

lemma isDigit_ofDigit (h : d < 10) : (ofDigit d).isDigit := by
  rw [isDigit_iff, toNat_ofDigit h]
  omega

lemma digitValue_ofDigit (h : d < 10) : (ofDigit d).digitValue = d := by
  rw [digitValue, toNat_ofDigit h, Nat.add_sub_cancel_left]

lemma ofScalar_digitChar (h : d < 10) : ofScalar (Nat.digitChar d).toNat = [ofDigit d] := by
  rw [Nat.toNat_digitChar_of_lt_ten h, ofScalar, if_pos (by omega), ofDigit]

end CodeUnit

namespace Text

variable {n d : Nat} {t rest : Text}

/-! ### Natural numbers -/

lemma ofNat_of_lt (h : d < 10) : ofNat d = [CodeUnit.ofDigit d] := by
  rw [ofNat, Nat.toDigits_of_lt_base h, List.flatMap_singleton, CodeUnit.ofScalar_digitChar h]

lemma ofNat_append (hn : 0 < n) (hd : d < 10) :
    ofNat (10 * n + d) = ofNat n ++ [CodeUnit.ofDigit d] := by
  rw [ofNat, ← Nat.toDigits_append_toDigits (by decide) hn hd, Nat.toDigits_of_lt_base hd,
    List.flatMap_append, List.flatMap_singleton, CodeUnit.ofScalar_digitChar hd, ofNat]

/-- A number has one digit, or it has the digits of its tenth and one more. -/
theorem ofNat_induction {motive : Nat → Text → Prop}
    (digit : ∀ d < 10, motive d [CodeUnit.ofDigit d])
    (snoc : ∀ n d, 0 < n → d < 10 → motive n (ofNat n) →
      motive (10 * n + d) (ofNat n ++ [CodeUnit.ofDigit d]))
    (n : Nat) : motive n (ofNat n) := by
  induction n using Nat.strongRecOn with
  | ind n ih =>
    by_cases hn : n < 10
    · rw [ofNat_of_lt hn]
      exact digit n hn
    · have hmotive := snoc (n / 10) (n % 10) (by omega) (by omega) (ih _ (by omega))
      rwa [← ofNat_append (by omega) (by omega), Nat.div_add_mod] at hmotive

lemma toNat_append_singleton (t : Text) (u : CodeUnit) :
    toNat (t ++ [u]) = 10 * toNat t + u.digitValue := by
  simp [toNat]

lemma isDigits_ofNat (n : Nat) : (ofNat n).isDigits := by
  refine ofNat_induction (motive := fun _ t => t.isDigits) ?_ ?_ n
  · intro d hd
    simp [isDigits, CodeUnit.isDigit_ofDigit hd]
  · intro n d _ hd ih
    obtain ⟨-, hall⟩ := isDigits_iff.mp ih
    exact isDigits_iff.mpr ⟨by simp, by simp [hall, CodeUnit.isDigit_ofDigit hd]⟩

/-- The digits of a number write it. -/
@[simp] theorem toNat_ofNat (n : Nat) : toNat (ofNat n) = n := by
  refine ofNat_induction (motive := fun n t => toNat t = n) ?_ ?_ n
  · intro d hd
    simp [toNat, CodeUnit.digitValue_ofDigit hd]
  · intro n d _ hd ih
    rw [toNat_append_singleton, ih, CodeUnit.digitValue_ofDigit hd]

/-- A number that is written with a leading zero has no other digit. -/
lemma length_ofNat_of_head? (h : (ofNat n).head? = some 0x30) : (ofNat n).length = 1 := by
  suffices hzero : (ofNat n).head? = some 0x30 → n = 0 by
    rw [hzero h]
    rfl
  refine ofNat_induction (motive := fun n t => t.head? = some 0x30 → n = 0) ?_ ?_ n
  · intro d hd hhead
    have hunit : (CodeUnit.ofDigit d).toNat = 0x30 := by
      rw [Option.some.inj hhead]
      rfl
    rw [CodeUnit.toNat_ofDigit hd] at hunit
    omega
  · intro n d hn _ ih hhead
    obtain ⟨hne, -⟩ := isDigits_iff.mp (isDigits_ofNat n)
    obtain ⟨u, w, hw⟩ := List.exists_cons_of_ne_nil hne
    rw [hw] at hhead ih
    exact absurd (ih hhead) hn.ne'

/-! ### Parts of a numeral -/

lemma leadingDigits_append (ht : t.all CodeUnit.isDigit)
    (hrest : rest.head?.any CodeUnit.isDigit = false) : leadingDigits (t ++ rest) = t :=
  takeWhile_append_of_head ht hrest

lemma afterDigits_append (ht : t.all CodeUnit.isDigit)
    (hrest : rest.head?.any CodeUnit.isDigit = false) : afterDigits (t ++ rest) = rest := by
  have hparts : leadingDigits (t ++ rest) ++ afterDigits (t ++ rest) = t ++ rest :=
    List.takeWhile_append_dropWhile
  rw [leadingDigits_append ht hrest] at hparts
  exact List.append_cancel_left hparts

lemma exists_eq_cons_of_isDigits (h : t.isDigits) : ∃ u w, t = u :: w ∧ u.isDigit := by
  obtain ⟨hne, hall⟩ := isDigits_iff.mp h
  obtain ⟨u, w, rfl⟩ := List.exists_cons_of_ne_nil hne
  exact ⟨u, w, rfl, List.all_eq_true.mp hall u (by simp)⟩

lemma takeSign_of_isDigits_append (h : t.isDigits) (rest : Text) :
    takeSign (t ++ rest) = (false, t ++ rest) := by
  obtain ⟨u, t, rfl, hu⟩ := exists_eq_cons_of_isDigits h
  have hminus : u ≠ CodeUnit.minus := CodeUnit.ne_of_holds hu (by decide)
  have hplus : u ≠ CodeUnit.plus := CodeUnit.ne_of_holds hu (by decide)
  simp [takeSign, hminus, hplus]

end Text

end Sprig
