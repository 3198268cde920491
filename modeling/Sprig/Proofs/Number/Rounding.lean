import Mathlib.Algebra.Order.Field.Rat
import Mathlib.Data.Rat.Floor
import Mathlib.Tactic.FieldSimp
import Mathlib.Tactic.Linarith
import Mathlib.Tactic.Ring
import Sprig.Number.Binary64

/-!
# Rounding

A number is rounded to the multiple of its spacing that is nearest to it. That is a value of the
binary64 format, and no other value is nearer, unless it has become too great for the format. Where
it is zero, its sign is that of the number. A decimal number is rounded in the same way, whatever
its exponent.

An integer of fewer than 54 bits is a value of the format, so rounding leaves it as it is. A greater
one may move, but no farther than to a power of two: it stays far outside the range of a 32-bit
word, or becomes infinite.
-/

namespace Sprig.Binary64

/-! ### Powers of two -/

lemma two_zpow_pos (e : ℤ) : (0 : ℚ) < 2 ^ e := zpow_pos (by norm_num) e

lemma two_zpow_add (e e' : ℤ) : (2 : ℚ) ^ (e + e') = 2 ^ e * 2 ^ e' := zpow_add₀ (by norm_num) e e'

lemma two_zpow_le {e e' : ℤ} (h : e ≤ e') : (2 : ℚ) ^ e ≤ 2 ^ e' :=
  zpow_le_zpow_right₀ (by norm_num) h

lemma powerOfTwo_eq_zpow (e : ℤ) : powerOfTwo e = (2 : ℚ) ^ e := by
  unfold powerOfTwo
  split_ifs with h
  · obtain ⟨n, rfl⟩ := Int.eq_ofNat_of_zero_le h
    simp
  · obtain ⟨n, hn⟩ := Int.eq_ofNat_of_zero_le (show 0 ≤ -e by omega)
    rw [hn, Rat.mkRat_eq_div, show e = -(n : ℤ) by omega]
    simp

lemma magnitude_eq_abs (q : ℚ) : magnitude q = |q| := by
  unfold magnitude
  split_ifs with h
  · exact (abs_of_neg h).symm
  · exact (abs_of_nonneg (not_lt.mp h)).symm

/-! ### The nearest integer -/

lemma floor_le_lt (q : ℚ) : (q.floor : ℚ) ≤ q ∧ q < q.floor + 1 := by
  have hlt := Rat.lt_floor_add_one q
  push_cast at hlt
  exact ⟨Rat.floor_le q, hlt⟩

/-- No integer is nearer. -/
lemma abs_nearestEven_sub_le (q : ℚ) (k : ℤ) : |(nearestEven q : ℚ) - q| ≤ |(k : ℚ) - q| := by
  obtain ⟨hle, hlt⟩ := floor_le_lt q
  -- an integer is no nearer than the nearest one on its side
  have hk : q - q.floor ≤ |(k : ℚ) - q| ∨ q.floor + 1 - q ≤ |(k : ℚ) - q| := by
    rcases le_or_gt k q.floor with h | h
    · have hcast : (k : ℚ) ≤ q.floor := by exact_mod_cast h
      have := neg_le_abs ((k : ℚ) - q)
      exact Or.inl (by linarith)
    · have hcast : (q.floor : ℚ) + 1 ≤ k := by exact_mod_cast h
      have := le_abs_self ((k : ℚ) - q)
      exact Or.inr (by linarith)
  have hlow : |(q.floor : ℚ) - q| = q - q.floor := by
    rw [abs_sub_comm, abs_of_nonneg (by linarith)]
  have hhigh : |((q.floor + 1 : ℤ) : ℚ) - q| = q.floor + 1 - q := by
    push_cast
    exact abs_of_nonneg (by linarith)
  simp only [nearestEven]
  split_ifs
  · rcases hk with hk | hk <;> linarith
  · rcases hk with hk | hk <;> linarith
  · rcases hk with hk | hk <;> linarith
  · rcases hk with hk | hk <;> linarith

lemma nearestEven_of_abs_lt {q : ℚ} (h : |q| < 1 / 2) : nearestEven q = 0 := by
  have hnear := abs_nearestEven_sub_le q 0
  rw [Int.cast_zero, zero_sub, abs_neg] at hnear
  have hback := abs_sub_abs_le_abs_sub (nearestEven q : ℚ) q
  have hlt : |(nearestEven q : ℚ)| < 1 := by linarith
  exact Int.abs_lt_one_iff.mp (by exact_mod_cast hlt)

/-! ### The spacing of the format -/

/-- The multiple of the spacing that is nearest to a number. -/
def nearestMultiple (q : ℚ) : ℚ := nearestEven (q / spacing q) * spacing q

section Spacing

variable {q : ℚ}

lemma binade_spec (hq : q ≠ 0) : (2 : ℚ) ^ binade q ≤ |q| ∧ |q| < 2 ^ (binade q + 1) := by
  have hden : (0 : ℚ) < q.den := by exact_mod_cast q.den_pos
  have habs : |q| * q.den = q.num.natAbs := by
    rw [← abs_of_pos hden, ← abs_mul, Rat.mul_den_eq_num, ← Int.cast_abs, Int.abs_eq_natAbs]
    rfl
  have hnum : (2 : ℚ) ^ (q.num.natAbs.log2 : ℤ) ≤ q.num.natAbs := by
    exact_mod_cast Nat.log2_self_le (Int.natAbs_ne_zero.mpr (Rat.num_ne_zero.mpr hq))
  have hnum' : (q.num.natAbs : ℚ) < 2 ^ ((q.num.natAbs.log2 : ℤ) + 1) := by
    exact_mod_cast Nat.lt_log2_self
  have hdenom : (2 : ℚ) ^ (q.den.log2 : ℤ) ≤ q.den := by
    exact_mod_cast Nat.log2_self_le q.den_nz
  have hdenom' : (q.den : ℚ) < 2 ^ ((q.den.log2 : ℤ) + 1) := by
    exact_mod_cast Nat.lt_log2_self
  rw [binade, powerOfTwo_eq_zpow, magnitude_eq_abs]
  generalize (q.num.natAbs.log2 : ℤ) = a at *
  generalize (q.den.log2 : ℤ) = d at *
  have hlower : (2 : ℚ) ^ (a - d - 1) ≤ |q| := by
    refine le_of_mul_le_mul_right ?_ hden
    calc (2 : ℚ) ^ (a - d - 1) * q.den ≤ 2 ^ (a - d - 1) * 2 ^ (d + 1) :=
          mul_le_mul_of_nonneg_left hdenom'.le (two_zpow_pos _).le
      _ = 2 ^ a := by rw [← two_zpow_add]; congr 1; ring
      _ ≤ |q| * q.den := by rwa [habs]
  have hupper : |q| < (2 : ℚ) ^ (a - d + 1) := by
    refine lt_of_mul_lt_mul_right ?_ hden.le
    calc |q| * q.den < 2 ^ (a + 1) := by rwa [habs]
      _ = (2 : ℚ) ^ (a - d + 1) * 2 ^ d := by rw [← two_zpow_add]; congr 1; ring
      _ ≤ (2 : ℚ) ^ (a - d + 1) * q.den :=
          mul_le_mul_of_nonneg_left hdenom (two_zpow_pos _).le
  by_cases h : (2 : ℚ) ^ (a - d) ≤ |q|
  · rw [if_pos h]
    exact ⟨h, hupper⟩
  · rw [if_neg h, Int.sub_add_cancel]
    exact ⟨hlower, not_le.mp h⟩

lemma le_binade {e : ℤ} (hq : q ≠ 0) (h : (2 : ℚ) ^ e ≤ |q|) : e ≤ binade q := by
  have hlt := (zpow_lt_zpow_iff_right₀ (by norm_num)).mp (h.trans_lt (binade_spec hq).2)
  omega

lemma spacing_eq_zpow (q : ℚ) : spacing q = (2 : ℚ) ^ max (binade q - 52) (-1074) :=
  powerOfTwo_eq_zpow _

lemma spacing_pos (q : ℚ) : 0 < spacing q := by
  rw [spacing_eq_zpow]
  exact two_zpow_pos _

/-- No multiple of the spacing is nearer. -/
lemma abs_nearestMultiple_sub_le (q : ℚ) (k : ℤ) :
    |nearestMultiple q - q| ≤ |k * spacing q - q| := by
  have hpos := spacing_pos q
  have hscale : ∀ n : ℤ, |(n : ℚ) * spacing q - q| = |(n : ℚ) - q / spacing q| * spacing q := by
    intro n
    rw [← abs_of_pos hpos, ← abs_mul, abs_of_pos hpos, sub_mul, div_mul_cancel₀ _ hpos.ne']
  rw [nearestMultiple, hscale, hscale]
  exact mul_le_mul_of_nonneg_right (abs_nearestEven_sub_le _ k) hpos.le

/-- No multiple is nearer in magnitude. -/
lemma abs_nearestMultiple_sub_le_abs (q : ℚ) (n : ℕ) :
    |nearestMultiple q - q| ≤ |n * spacing q - abs q| := by
  rcases le_or_gt 0 q with hq | hq
  · rw [abs_of_nonneg hq]
    exact_mod_cast abs_nearestMultiple_sub_le q n
  · rw [abs_of_neg hq, sub_neg_eq_add, ← abs_neg ((n : ℚ) * spacing q + q)]
    have h := abs_nearestMultiple_sub_le q (-n)
    push_cast at h
    rwa [neg_mul, ← neg_add'] at h

lemma abs_nearestMultiple_le (hq : q ≠ 0) : |nearestMultiple q| ≤ 2 ^ 53 * spacing q := by
  have hsize : |q| ≤ 2 ^ 53 * spacing q := by
    calc |q| ≤ (2 : ℚ) ^ (53 + (binade q - 52)) := by
          rw [show 53 + (binade q - 52) = binade q + 1 by ring]
          exact (binade_spec hq).2.le
      _ ≤ 2 ^ (53 + max (binade q - 52) (-1074)) := two_zpow_le (by omega)
      _ = 2 ^ 53 * spacing q := by rw [two_zpow_add, spacing_eq_zpow]; norm_num
  have hnear := abs_nearestMultiple_sub_le_abs q (2 ^ 53)
  rw [Nat.cast_pow, Nat.cast_ofNat, abs_of_nonneg (sub_nonneg.mpr hsize)] at hnear
  have hback := abs_sub_abs_le_abs_sub (nearestMultiple q) q
  linarith

/-- In the normal range the power of two below a number is a multiple of the spacing. -/
lemma abs_nearestMultiple_sub_le_binade (hq : q ≠ 0) (hnormal : -1022 ≤ binade q) :
    |nearestMultiple q - q| ≤ |q| - 2 ^ binade q := by
  have hpower : (2 : ℚ) ^ binade q = (2 ^ 52 : ℕ) * spacing q := by
    rw [spacing_eq_zpow, max_eq_left (by omega)]
    calc (2 : ℚ) ^ binade q = 2 ^ (52 + (binade q - 52)) := by congr 1; ring
      _ = (2 ^ 52 : ℕ) * 2 ^ (binade q - 52) := by rw [two_zpow_add]; norm_num
  have hnear := abs_nearestMultiple_sub_le_abs q (2 ^ 52)
  rwa [← hpower, abs_sub_comm (2 ^ _), abs_of_nonneg (sub_nonneg.mpr (binade_spec hq).1)] at hnear

lemma le_abs_nearestMultiple (hq : q ≠ 0) (hnormal : -1022 ≤ binade q) :
    2 ^ binade q ≤ |nearestMultiple q| := by
  have hnear := abs_nearestMultiple_sub_le_binade hq hnormal
  have hback := abs_sub_abs_le_abs_sub q (nearestMultiple q)
  rw [abs_sub_comm] at hback
  linarith

/-- Less than half of the least spacing is lost. -/
lemma nearestMultiple_of_abs_lt (h : |q| < 2 ^ (-1075 : ℤ)) : nearestMultiple q = 0 := by
  have hpos := spacing_pos q
  have hhalf : |q / spacing q| < 1 / 2 := by
    rw [abs_div, abs_of_pos hpos, div_lt_iff₀ hpos]
    calc |q| < 2 ^ (-1 + -1074 : ℤ) := h
      _ = 1 / 2 * 2 ^ (-1074 : ℤ) := by rw [two_zpow_add]; norm_num
      _ ≤ 1 / 2 * spacing q := by
          rw [spacing_eq_zpow]
          exact mul_le_mul_of_nonneg_left (two_zpow_le (le_max_right _ _)) (by norm_num)
  rw [nearestMultiple, nearestEven_of_abs_lt hhalf, Int.cast_zero, zero_mul]

lemma nearestMultiple_zero : nearestMultiple 0 = 0 :=
  nearestMultiple_of_abs_lt (by simp)

lemma round_of_ne_zero (hq : q ≠ 0) :
    round q = if nearestMultiple q = 0 then zero (q < 0)
      else if |nearestMultiple q| < 2 ^ (1024 : ℤ) then finite (nearestMultiple q)
      else infinite (q < 0) := by
  rw [round, if_neg hq]
  simp only [magnitude_eq_abs, powerOfTwo_eq_zpow]
  rfl

end Spacing

/-! ### Values of the format -/

/-- The number that a value is, if it is finite. Both zeros are the number zero. -/
def toRat? : Binary64 → Option ℚ
  | negativeZero => some 0
  | finite q => some q
  | _ => none

lemma toRat?_zero (negative : Bool) : (zero negative).toRat? = some 0 := by
  cases negative <;> rfl

lemma toRat?_round (q : ℚ) :
    (round q).toRat? = if |nearestMultiple q| < 2 ^ (1024 : ℤ) then some (nearestMultiple q)
      else none := by
  by_cases hq : q = 0
  · rw [hq, nearestMultiple_zero, abs_zero, if_pos (two_zpow_pos _)]
    rfl
  · rw [round_of_ne_zero hq]
    split_ifs with hzero hbound
    · rw [hzero, toRat?_zero]
    · rw [hzero, abs_zero] at hbound
      exact absurd (two_zpow_pos _) hbound
    · rfl
    · rfl

/-- The finite values: a significand of at most 53 bits times a power of two. -/
def IsValue (v : ℚ) : Prop :=
  ∃ m e : ℤ, |m| < 2 ^ 53 ∧ -1074 ≤ e ∧ e ≤ 971 ∧ v = m * 2 ^ e

section Values

variable {q v r : ℚ}

lemma IsValue.abs_lt (h : IsValue v) : |v| < 2 ^ (1024 : ℤ) := by
  obtain ⟨m, e, hm, -, he, rfl⟩ := h
  have hm' : |(m : ℚ)| < 2 ^ (53 : ℤ) := by exact_mod_cast hm
  rw [abs_mul, abs_of_pos (two_zpow_pos e)]
  calc |(m : ℚ)| * 2 ^ e < 2 ^ (53 : ℤ) * 2 ^ e := mul_lt_mul_of_pos_right hm' (two_zpow_pos e)
    _ = (2 : ℚ) ^ (53 + e) := (two_zpow_add 53 e).symm
    _ ≤ 2 ^ (1024 : ℤ) := two_zpow_le (by omega)

/-- A value is a multiple of the spacing around a number, or it is less than the power of two below
the number. -/
lemma IsValue.multiple_or_lt (h : IsValue v) (q : ℚ) :
    (∃ k : ℤ, v = k * spacing q) ∨ |v| < 2 ^ binade q ∧ -1022 ≤ binade q := by
  obtain ⟨m, e, hm, he, -, rfl⟩ := h
  rcases le_or_gt (max (binade q - 52) (-1074)) e with hle | hlt
  · obtain ⟨n, hn⟩ := Int.eq_ofNat_of_zero_le (Int.sub_nonneg.mpr hle)
    refine Or.inl ⟨m * 2 ^ n, ?_⟩
    rw [spacing_eq_zpow]
    push_cast
    rw [mul_assoc, ← zpow_natCast, ← two_zpow_add]
    congr 2
    omega
  · refine Or.inr ⟨?_, by omega⟩
    have hm' : |(m : ℚ)| < 2 ^ (53 : ℤ) := by exact_mod_cast hm
    rw [abs_mul, abs_of_pos (two_zpow_pos e)]
    calc |(m : ℚ)| * 2 ^ e < 2 ^ (53 : ℤ) * 2 ^ e := mul_lt_mul_of_pos_right hm' (two_zpow_pos e)
      _ = (2 : ℚ) ^ (53 + e) := (two_zpow_add 53 e).symm
      _ ≤ 2 ^ binade q := two_zpow_le (by omega)

/-- A significand of 53 bits may be rounded up to one that needs a bit more. That one is even. -/
lemma isValue_of_le {n e : ℤ} (hn : |n| ≤ 2 ^ 53) (hleast : -1074 ≤ e) (hgreatest : e ≤ 971)
    (hbound : |(n : ℚ) * 2 ^ e| < 2 ^ (1024 : ℤ)) : IsValue (n * 2 ^ e) := by
  rcases hn.lt_or_eq with hlt | heq
  · exact ⟨n, e, hlt, hleast, hgreatest, rfl⟩
  have hpower : (2 : ℚ) ^ (53 + e) < 2 ^ (1024 : ℤ) := by
    rw [abs_mul, abs_of_pos (two_zpow_pos e), ← Int.cast_abs, heq] at hbound
    rw [two_zpow_add]
    exact_mod_cast hbound
  have hless : 53 + e < 1024 := (zpow_lt_zpow_iff_right₀ (by norm_num)).mp hpower
  rcases (abs_eq (by norm_num)).mp heq with rfl | rfl
  · refine ⟨2 ^ 52, e + 1, by norm_num, by omega, by omega, ?_⟩
    rw [two_zpow_add]
    push_cast
    ring
  · refine ⟨-2 ^ 52, e + 1, by norm_num, by omega, by omega, ?_⟩
    rw [two_zpow_add]
    push_cast
    ring

lemma isValue_nearestMultiple (hq : q ≠ 0) (hbound : |nearestMultiple q| < 2 ^ (1024 : ℤ)) :
    IsValue (nearestMultiple q) := by
  have hpos := spacing_pos q
  have hsize : |(nearestEven (q / spacing q) : ℚ)| ≤ 2 ^ 53 := by
    refine le_of_mul_le_mul_right ?_ hpos
    rw [← abs_of_pos hpos, ← abs_mul, abs_of_pos hpos]
    exact abs_nearestMultiple_le hq
  have hgreatest : max (binade q - 52) (-1074) ≤ 971 := by
    by_contra hlarge
    have hpower : (2 : ℚ) ^ (1024 : ℤ) ≤ 2 ^ binade q := two_zpow_le (by omega)
    exact (hpower.trans (le_abs_nearestMultiple hq (by omega))).not_gt hbound
  rw [nearestMultiple, spacing_eq_zpow] at hbound ⊢
  rw [spacing_eq_zpow] at hsize
  exact isValue_of_le (by exact_mod_cast hsize) (le_max_right _ _) hgreatest hbound

/-- Rounding moves a number to a nearest value of the format. -/
theorem round_nearest (h : (round q).toRat? = some r) :
    IsValue r ∧ ∀ v, IsValue v → |r - q| ≤ |v - q| := by
  rw [toRat?_round] at h
  split_ifs at h with hbound
  obtain rfl := Option.some.inj h
  by_cases hq : q = 0
  · rw [hq, nearestMultiple_zero, sub_self, abs_zero]
    exact ⟨⟨0, 0, by norm_num⟩, fun v _ => abs_nonneg _⟩
  refine ⟨isValue_nearestMultiple hq hbound, fun v hv => ?_⟩
  rcases hv.multiple_or_lt q with ⟨k, rfl⟩ | ⟨hlt, hnormal⟩
  · exact abs_nearestMultiple_sub_le q k
  · -- the power of two below the number lies between
    have hnear := abs_nearestMultiple_sub_le_binade hq hnormal
    have hback := abs_sub_abs_le_abs_sub q v
    rw [abs_sub_comm] at hback
    linarith

/-- What is rounded to zero has the sign of the number; zero itself has none. -/
theorem round_eq_negativeZero_iff :
    round q = negativeZero ↔ q < 0 ∧ (round q).toRat? = some 0 := by
  by_cases hq : q = 0
  · simp [hq, round]
  rw [toRat?_round, round_of_ne_zero hq]
  by_cases hzero : nearestMultiple q = 0
  · simp [hzero, zero]
  · rw [if_neg hzero]
    split_ifs <;> simp [hzero]

/-- Rounding leaves a value of the format as it is. -/
theorem round_of_isValue (h : IsValue v) : round v = finite v := by
  by_cases hv : v = 0
  · simp [hv, round]
  have hsame : nearestMultiple v = v := by
    rcases h.multiple_or_lt v with ⟨k, hk⟩ | ⟨hlt, -⟩
    · have hnear := abs_nearestMultiple_sub_le v k
      rw [← hk, sub_self, abs_zero] at hnear
      exact sub_eq_zero.mp (abs_nonpos_iff.mp hnear)
    · exact absurd hlt (binade_spec hv).1.not_gt
  rw [round_of_ne_zero hv, hsame, if_neg hv, if_pos h.abs_lt]

end Values

/-! ### Decimal numbers -/

section Decimals

variable {d : Decimal}

lemma toRat_eq_mul_zpow (d : Decimal) : d.toRat = d.significand * (10 : ℚ) ^ d.exponent := by
  unfold Decimal.toRat
  split_ifs with h
  · obtain ⟨n, hn⟩ := Int.eq_ofNat_of_zero_le h
    simp [hn]
  · obtain ⟨n, hn⟩ := Int.eq_ofNat_of_zero_le (show 0 ≤ -d.exponent by omega)
    rw [hn, Rat.mkRat_eq_div, show d.exponent = -(n : ℤ) by omega, zpow_neg]
    simp [div_eq_mul_inv]

lemma abs_toRat (d : Decimal) : |d.toRat| = d.mantissa * (10 : ℚ) ^ d.exponent := by
  have hsign : |(d.significand : ℚ)| = d.mantissa := by
    unfold Decimal.significand
    split_ifs <;> simp
  rw [toRat_eq_mul_zpow, abs_mul, hsign, abs_of_pos (zpow_pos (by norm_num) _)]

lemma toRat_lt_zero_iff (h : d.mantissa ≠ 0) : d.toRat < 0 ↔ d.negative := by
  have hpos : (0 : ℚ) < 10 ^ d.exponent := zpow_pos (by norm_num) _
  rw [toRat_eq_mul_zpow, ← not_iff_not, not_lt, mul_nonneg_iff_of_pos_right hpos,
    Int.cast_nonneg_iff, Decimal.significand]
  split_ifs with hnegative <;> simp [hnegative, h]

lemma two_zpow_le_ten_zpow {e : ℤ} (h : 0 ≤ e) : (2 : ℚ) ^ (3 * e) ≤ 10 ^ e := by
  rw [zpow_mul]
  exact zpow_le_zpow_left₀ h (by norm_num) (by norm_num)

lemma ten_zpow_le_two_zpow {e : ℤ} (h : e ≤ 0) : (10 : ℚ) ^ e ≤ 2 ^ (3 * e) := by
  have hinv := inv_anti₀ (two_zpow_pos _) (two_zpow_le_ten_zpow (Int.neg_nonneg.mpr h))
  rwa [← zpow_neg, ← zpow_neg, mul_neg, neg_neg, neg_neg] at hinv

lemma le_abs_toRat (h : d.mantissa ≠ 0) (hexponent : 400 < d.exponent) :
    (2 : ℚ) ^ (1024 : ℤ) ≤ |d.toRat| := by
  have hone : (1 : ℚ) ≤ d.mantissa := by exact_mod_cast Nat.one_le_iff_ne_zero.mpr h
  rw [abs_toRat]
  calc (2 : ℚ) ^ (1024 : ℤ) ≤ 2 ^ (3 * d.exponent) := two_zpow_le (by omega)
    _ ≤ 10 ^ d.exponent := two_zpow_le_ten_zpow (by omega)
    _ ≤ d.mantissa * 10 ^ d.exponent :=
        le_mul_of_one_le_left (zpow_pos (by norm_num) _).le hone

lemma abs_toRat_lt (hexponent : d.exponent < -(400 + d.mantissa.log2 : ℤ)) :
    |d.toRat| < (2 : ℚ) ^ (-1075 : ℤ) := by
  have hdigits : (d.mantissa : ℚ) < 2 ^ ((d.mantissa.log2 : ℤ) + 1) := by
    exact_mod_cast Nat.lt_log2_self
  rw [abs_toRat]
  calc (d.mantissa : ℚ) * 10 ^ d.exponent
      < 2 ^ ((d.mantissa.log2 : ℤ) + 1) * 10 ^ d.exponent :=
        mul_lt_mul_of_pos_right hdigits (zpow_pos (by norm_num) _)
    _ ≤ 2 ^ ((d.mantissa.log2 : ℤ) + 1) * 2 ^ (3 * d.exponent) :=
        mul_le_mul_of_nonneg_left (ten_zpow_le_two_zpow (by omega)) (two_zpow_pos _).le
    _ = 2 ^ ((d.mantissa.log2 : ℤ) + 1 + 3 * d.exponent) := (two_zpow_add _ _).symm
    _ ≤ 2 ^ (-1075 : ℤ) := two_zpow_le (by omega)

/-- Where the exponent alone decides, it decides as rounding does. -/
theorem ofDecimal_of_ne_zero (h : d.mantissa ≠ 0) : ofDecimal d = round d.toRat := by
  have hq : d.toRat ≠ 0 := by
    rw [← abs_pos, abs_toRat]
    exact mul_pos (by exact_mod_cast Nat.pos_of_ne_zero h) (zpow_pos (by norm_num) _)
  have hsign : decide (d.toRat < 0) = d.negative := by
    rw [Bool.eq_iff_iff, decide_eq_true_eq, toRat_lt_zero_iff h]
  rw [ofDecimal, if_neg h]
  split_ifs with hlarge hsmall
  · have hbinade := le_binade hq (le_abs_toRat h hlarge)
    have hbound := (two_zpow_le hbinade).trans (le_abs_nearestMultiple hq (by omega))
    rw [round_of_ne_zero hq, if_neg (abs_pos.mp ((two_zpow_pos _).trans_le hbound)),
      if_neg hbound.not_gt, hsign]
  · rw [round_of_ne_zero hq, if_pos (nearestMultiple_of_abs_lt (abs_toRat_lt hsmall)), hsign]
  · rfl

end Decimals

/-! ### Integers -/

section Integers

variable {n : ℤ}

/-- An integer of at most 53 bits is not moved. -/
lemma round_intCast (h : n.natAbs < 2 ^ 53) : round (n : ℚ) = finite n :=
  round_of_isValue
    ⟨n, 0, by rw [Int.abs_eq_natAbs]; exact_mod_cast h, by norm_num, by norm_num, by simp⟩

/-- What a longer integer becomes is beyond all words. -/
lemma round_intCast_of_le (h : 2 ^ 53 ≤ n.natAbs) :
    (∃ negative, round (n : ℚ) = infinite negative) ∨
      ∃ r : ℚ, round (n : ℚ) = finite r ∧ 2 ^ 52 ≤ |r| := by
  have hn : (n : ℚ) ≠ 0 := by
    rw [Int.cast_ne_zero]
    rintro rfl
    simp at h
  have hsize : (2 : ℚ) ^ (52 : ℤ) ≤ |(n : ℚ)| := by
    rw [← Int.cast_abs, Int.abs_eq_natAbs]
    exact_mod_cast (Nat.pow_le_pow_right (by norm_num) (by norm_num)).trans h
  have hbinade := le_binade hn hsize
  have hlarge : (2 : ℚ) ^ (52 : ℤ) ≤ |nearestMultiple n| :=
    (two_zpow_le hbinade).trans (le_abs_nearestMultiple hn (by omega))
  rw [round_of_ne_zero hn, if_neg (abs_pos.mp ((two_zpow_pos 52).trans_le hlarge))]
  split_ifs
  · exact Or.inr ⟨_, rfl, by exact_mod_cast hlarge⟩
  · exact Or.inl ⟨_, rfl⟩

end Integers

end Sprig.Binary64
