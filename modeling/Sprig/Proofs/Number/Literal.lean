import Mathlib.Data.List.Induction
import Mathlib.Data.Nat.Digits.Defs
import Sprig.Number.Word
import Sprig.Proofs.Number.Digits
import Sprig.Proofs.Number.Rounding
import Sprig.Proofs.Token.Lexeme

/-!
# Integer literals

The word of an integer lexeme is found by way of a double-precision number. Rounding does no harm
there: the lexeme has a word exactly if the integer that it writes is within the range of words,
and then the word is that integer, however many digits there are. A zero after a minus sign is read
as the negative zero, but the literal stands for the zero without a sign.
-/

namespace Sprig

/-- An integer within the range of words. -/
def IsWord (n : Int) : Prop := Word.least ≤ n ∧ n ≤ Word.greatest

instance (n : Int) : Decidable (IsWord n) := inferInstanceAs (Decidable (_ ∧ _))

namespace Word

lemma isWord_wrap (n : Int) : IsWord (wrap n) := ⟨least_le_wrap n, wrap_le_greatest n⟩

lemma wrap_of_isWord {n : Int} (h : IsWord n) : wrap n = n := by
  simp only [IsWord, least, greatest] at h
  exact Int.bmod_eq_of_le (by omega) (by omega)

end Word

/-! ### Reading the digits -/

namespace Text

/-- Digits with a minus sign before them, or without one. -/
def signed (digits : Text) (negative : Bool) : Text :=
  if negative then CodeUnit.minus :: digits else digits

lemma trim_of_all {t : Text} (h : ∀ u ∈ t, u.isBlank = false) : t.trim = t := by
  have hstart : ∀ t' : Text, (∀ u ∈ t', u.isBlank = false) →
      t'.dropWhile CodeUnit.isBlank = t' := by
    intro t' h'
    cases t' with
    | nil => rfl
    | cons u t' => simp [h' u (by simp)]
  rw [trim, trimStart, hstart t h, trimEnd, hstart t.reverse (by simpa using h),
    List.reverse_reverse]

lemma isBlank_of_isDigit_of_mem {t : Text} (h : t.all CodeUnit.isDigit) :
    ∀ u ∈ t, u.isBlank = false := fun u hu =>
  CodeUnit.isBlank_of_isAlphanumeric
    (CodeUnit.isAlphanumeric_of_isDigit (List.all_eq_true.mp h u hu))

lemma isBlank_of_isInteger_of_mem {t : Text} (h : t.isInteger) : ∀ u ∈ t, u.isBlank = false := by
  cases t with
  | nil => simp
  | cons u t =>
    intro v hv
    rcases isInteger_cons.mp h with ⟨rfl, hdigits⟩ | ⟨hu, hdigits⟩
    · rcases List.mem_cons.mp hv with rfl | hv
      · decide
      · exact isBlank_of_isDigit_of_mem (isDigits_iff.mp hdigits).2 v hv
    · exact isBlank_of_isDigit_of_mem (t := u :: t) (by simpa [hu] using hdigits) v hv

lemma leadingDigits_of_all {t : Text} (h : t.all CodeUnit.isDigit) : t.leadingDigits = t := by
  have hall : ∀ u ∈ t, u.isDigit := List.all_eq_true.mp h
  exact List.takeWhile_eq_self_iff.mpr hall

lemma afterDigits_of_all {t : Text} (h : t.all CodeUnit.isDigit) : t.afterDigits = [] := by
  simpa [afterDigits, List.dropWhile_eq_nil_iff] using h

/-- Digits are no base mark, so an integer lexeme never counts as marked. -/
lemma markedInteger?_of_isInteger {t : Text} (h : t.isInteger) : t.markedInteger? = none := by
  match t, h with
  | [u], _ => rfl
  | u :: v :: t, h =>
    rcases isInteger_cons.mp h with ⟨rfl, -⟩ | ⟨-, hdigits⟩
    · rfl
    · have hv : v.isDigit := by simpa using (List.all_eq_true.mp hdigits) v (by simp)
      have hbase : base? v = none := by
        rw [CodeUnit.isDigit_iff] at hv
        simp only [base?, ← UInt16.toNat_inj, UInt16.reduceToNat]
        rw [if_neg (by omega), if_neg (by omega), if_neg (by omega)]
      simp [markedInteger?, hbase]

/-- The number that digits write in base ten, the last of them being the least. -/
lemma toNat_eq_ofDigits (t : Text) :
    t.toNat = Nat.ofDigits 10 (t.reverse.map CodeUnit.digitValue) := by
  induction t using List.reverseRecOn with
  | nil => rfl
  | append_singleton t u ih =>
    rw [toNat_append_singleton, ih, List.reverse_concat, List.map_cons, Nat.ofDigits_cons]
    exact Nat.add_comm _ _

lemma decimal?_of_isDigits {t : Text} (h : t.isDigits) (negative : Bool) :
    t.decimal? negative = some ⟨negative, t.toNat, 0⟩ := by
  obtain ⟨hne, hall⟩ := isDigits_iff.mp h
  simp [decimal?, leadingDigits_of_all hall, afterDigits_of_all hall, takeFraction,
    takeExponent?, Decimal.ofParts, hne]

lemma toUnsigned_of_isDigits {t : Text} (h : t.isDigits) (negative : Bool) :
    t.toUnsigned negative = .ofDecimal ⟨negative, t.toNat, 0⟩ := by
  have hinfinity : t ≠ ("Infinity" : Text) := by
    rintro rfl
    exact absurd h (by decide)
  simp [toUnsigned, hinfinity, decimal?_of_isDigits h]

lemma isInteger_signed {digits : Text} (h : digits.isDigits) (negative : Bool) :
    (digits.signed negative).isInteger := by
  cases negative with
  | true => exact isInteger_cons.mpr (.inl ⟨rfl, h⟩)
  | false =>
    obtain ⟨hne, hall⟩ := isDigits_iff.mp h
    cases digits with
    | nil => exact absurd rfl hne
    | cons u t => exact isInteger_cons.mpr (.inr (by simpa using hall))

lemma integerValue_signed {digits : Text} (h : digits.isDigits) (negative : Bool) :
    (digits.signed negative).integerValue =
      if negative then -(digits.toNat : Int) else digits.toNat := by
  cases negative with
  | true => simp [signed, integerValue]
  | false =>
    obtain ⟨u, t, rfl, hu⟩ := exists_eq_cons_of_isDigits h
    have hminus : u ≠ CodeUnit.minus := CodeUnit.ne_of_holds hu (by decide)
    simp [signed, integerValue, hminus]

/-- An integer lexeme is digits with a sign or without one. -/
lemma exists_signed_of_isInteger {t : Text} (h : t.isInteger) :
    ∃ digits negative, isDigits digits ∧ t = digits.signed negative := by
  cases t with
  | nil => simp [isInteger] at h
  | cons u t =>
    rcases isInteger_cons.mp h with ⟨rfl, hdigits⟩ | ⟨hu, hdigits⟩
    · exact ⟨t, true, hdigits, rfl⟩
    · exact ⟨u :: t, false, isDigits_iff.mpr ⟨by simp, by simpa [hu] using hdigits⟩, rfl⟩

/-- Digits write their decimal number, rounded; the sign is kept. -/
lemma toNumber_signed {digits : Text} (h : digits.isDigits) (negative : Bool) :
    (digits.signed negative).toNumber = .ofDecimal ⟨negative, digits.toNat, 0⟩ := by
  have hinteger := isInteger_signed h negative
  have htrim := trim_of_all (isBlank_of_isInteger_of_mem hinteger)
  have hmarked := markedInteger?_of_isInteger hinteger
  cases negative with
  | true =>
    rw [signed, if_pos rfl] at htrim hmarked ⊢
    simp [toNumber, htrim, hmarked, takeSign, toUnsigned_of_isDigits h]
  | false =>
    have hsign := takeSign_of_isDigits_append h []
    rw [List.append_nil] at hsign
    rw [signed, if_neg (by decide)] at htrim hmarked ⊢
    simp [toNumber, htrim, hmarked, hsign, (isDigits_iff.mp h).1, toUnsigned_of_isDigits h]

end Text

/-! ### The word of a literal -/

namespace Binary64

/-- An integer is rounded as the number it is, but a zero keeps its sign. -/
lemma ofDecimal_integer (negative : Bool) (m : ℕ) :
    ofDecimal ⟨negative, m, 0⟩ =
      if m = 0 then zero negative else round (if negative then -(m : ℤ) else m : ℤ) := by
  by_cases hm : m = 0
  · rw [if_pos hm, ofDecimal, if_pos hm]
  · rw [if_neg hm, ofDecimal_of_ne_zero hm]
    cases negative <;> simp [Decimal.toRat, Decimal.significand]

lemma integer?_intCast (n : ℤ) : (finite n).integer? = some n := by simp [integer?]

lemma ofInt_of_isWord {n : ℤ} (h : IsWord n) : ofInt n = finite n := by
  simp only [IsWord, Word.least, Word.greatest] at h
  exact round_intCast (by omega)

end Binary64

namespace Word

lemma fits_zero (negative : Bool) : fits (.zero negative) := by cases negative <;> decide

lemma fits_intCast (n : ℤ) : fits (.finite n) ↔ IsWord n := by
  simp [fits, Binary64.isInteger, Binary64.isAtLeast, Binary64.isAtMost, IsWord]

/-- Rounding takes no integer into the range of words or out of it. -/
lemma fits_round (n : ℤ) : fits (.round n) ↔ IsWord n := by
  by_cases hsize : n.natAbs < 2 ^ 53
  · rw [Binary64.round_intCast hsize, fits_intCast]
  · have hn : ¬ IsWord n := by
      simp only [IsWord, least, greatest]
      omega
    refine iff_of_false ?_ hn
    rcases Binary64.round_intCast_of_le (not_lt.mp hsize) with ⟨negative, hround⟩ | ⟨r, hround, hr⟩
    · simp [hround, fits, Binary64.isInteger]
    · have hfar : ¬ ((least : ℚ) ≤ r ∧ r ≤ greatest) := by
        rintro ⟨hleast, hgreatest⟩
        simp only [least, greatest] at hleast hgreatest
        push_cast at hleast hgreatest
        have hnear : |r| ≤ 2147483648 := abs_le.mpr ⟨by linarith, by linarith⟩
        norm_num at hr
        linarith
      rw [hround]
      simp only [fits, Binary64.isInteger, Binary64.isAtLeast, Binary64.isAtMost,
        Bool.and_eq_true, decide_eq_true_eq]
      rintro ⟨⟨-, hleast⟩, hgreatest⟩
      exact hfar ⟨hleast, hgreatest⟩

lemma ofNumber_zero (negative : Bool) : ofNumber (.zero negative) = 0 := by
  cases negative <;> rfl

lemma ofNumber_intCast {n : ℤ} (h : IsWord n) : ofNumber (.finite n) = n := by
  rw [ofNumber, Binary64.truncate, Rat.num_intCast, Rat.den_intCast]
  simpa using wrap_of_isWord h

/-- The number of a literal is the integer that it writes, never the negative zero. -/
lemma number?_of_isInteger {t : Text} (h : t.isInteger) :
    number? t = if IsWord t.integerValue then some (.finite t.integerValue) else none := by
  obtain ⟨digits, negative, hdigits, rfl⟩ := Text.exists_signed_of_isInteger h
  rw [number?, Text.toNumber_signed hdigits, Binary64.ofDecimal_integer,
    ← Text.integerValue_signed hdigits]
  by_cases hzero : digits.toNat = 0
  · have hvalue : (digits.signed negative).integerValue = 0 := by
      simp [Text.integerValue_signed hdigits, hzero]
    have hword : IsWord 0 := by decide
    rw [if_pos hzero, if_pos (fits_zero negative), ofNumber_zero, hvalue, if_pos hword,
      Binary64.ofInt_of_isWord hword]
  · rw [if_neg hzero]
    generalize (digits.signed negative).integerValue = n
    by_cases hword : IsWord n
    · have hround : Binary64.round n = .finite n := Binary64.ofInt_of_isWord hword
      rw [if_pos ((fits_round n).mpr hword), if_pos hword, hround, ofNumber_intCast hword,
        Binary64.ofInt_of_isWord hword]
    · rw [if_neg (mt (fits_round n).mp hword), if_neg hword]

theorem ofText?_of_isInteger {t : Text} (h : t.isInteger) :
    ofText? t = if IsWord t.integerValue then some t.integerValue else none := by
  rw [ofText?, number?_of_isInteger h]
  split_ifs
  · exact Binary64.integer?_intCast _
  · rfl

/-- What a literal stands for is a word, whatever the literal is. -/
lemma isWord_of_ofText? {t : Text} {n : ℤ} (h : ofText? t = some n) : IsWord n := by
  obtain ⟨x, hx, hinteger⟩ := Option.bind_eq_some_iff.mp h
  rw [number?] at hx
  split_ifs at hx
  obtain rfl := Option.some.inj hx
  have hword : IsWord (ofNumber t.toNumber) := isWord_wrap _
  rw [Binary64.ofInt_of_isWord hword, Binary64.integer?_intCast] at hinteger
  rwa [← Option.some.inj hinteger]

end Word

/-- Digits, however many and with a sign or not, are read as the nearest double-precision number,
which may be infinite, or the negative zero. Yet what they stand for is the integer that they write
in base ten if that is in the range, and otherwise nothing. -/
theorem Word.ofText?_signed {digits : Text} (h : digits.isDigits) (negative : Bool) :
    let size : Nat := Nat.ofDigits 10 (digits.reverse.map CodeUnit.digitValue)
    let n : Int := if negative then -(size : Int) else size
    (digits.signed negative).toNumber =
        (if negative ∧ size = 0 then .negativeZero else .round n) ∧
      Word.number? (digits.signed negative) =
        (if -2147483648 ≤ n ∧ n ≤ 2147483647 then some (.finite n) else none) ∧
      Word.ofText? (digits.signed negative) =
        if -2147483648 ≤ n ∧ n ≤ 2147483647 then some n else none := by
  intro size n
  have hsize : digits.toNat = size := Text.toNat_eq_ofDigits digits
  have hinteger : (digits.signed negative).isInteger := Text.isInteger_signed h negative
  have hvalue : (digits.signed negative).integerValue = n := by
    rw [Text.integerValue_signed h negative, hsize]
  refine ⟨?_, ?_, ?_⟩
  · rw [Text.toNumber_signed h, Binary64.ofDecimal_integer, hsize]
    by_cases hzero : size = 0
    · cases negative <;> simp [n, hzero, Binary64.zero, Binary64.round]
    · simp [n, hzero]
  · rw [Word.number?_of_isInteger hinteger, hvalue]
    rfl
  · rw [Word.ofText?_of_isInteger hinteger, hvalue]
    rfl

/-- Zeros after a minus sign are read as the negative zero and stand for zero. Digits beyond all
finite numbers stand for nothing. -/
theorem Word.ofText?_signed_zero_and_infinite :
    (Text.toNumber "-00" = .negativeZero ∧ Word.number? "-00" = some (.finite 0) ∧
      Word.ofText? "-00" = some 0) ∧
    Text.toNumber (List.replicate 400 0x39) = .infinite false ∧
      Word.number? (List.replicate 400 0x39) = none ∧
      Word.ofText? (List.replicate 400 0x39) = none := by
  have hdigits : Text.isDigits "00" := by decide
  have hmany : Text.isDigits (List.replicate 400 0x39) := by decide +kernel
  obtain ⟨hzero, hzero', hzero''⟩ := Word.ofText?_signed hdigits true
  obtain ⟨hnines, hnines', hnines''⟩ := Word.ofText?_signed hmany false
  refine ⟨⟨hzero.trans ?_, hzero'.trans ?_, hzero''.trans ?_⟩, hnines.trans ?_, hnines'.trans ?_,
    hnines''.trans ?_⟩ <;> decide +kernel

example : Word.ofText? ("-2147483648" : Text) = some (-2147483648) := by decide +kernel
example : Word.ofText? ("99999999999999999999" : Text) = none := by decide +kernel

end Sprig
