import Mathlib.Algebra.Ring.Nat
import Sprig.Proofs.Text.Scalar
import Sprig.Text.Utf8

/-!
# Decoding of encoded texts

Within a character the decoder awaits certain code points: those that start with the bytes read and
go on with a byte in range. Whatever it awaits after a first byte is a character, so no bytes decode
to half of a surrogate pair. And it awaits the character that is being read until the last of
its bytes, so that decoding undoes encoding.
-/

namespace Sprig.Utf8

variable {v n value : Nat} {b low high : UInt8} {d : Decoder} {bytes : List UInt8} {t : Text}

lemma isScalar_replacement : IsScalar replacement := ⟨by decide, by decide⟩

namespace Decoder

/-! ### Single bytes -/

lemma start_one (h : b.toNat ≤ 0x7F) : start b = (CodeUnit.ofScalar b.toNat, ready) := by
  rw [start, if_pos (by simpa [UInt8.le_iff_toNat_le] using h)]

lemma start_two (hlow : 0xC2 ≤ b.toNat) (hhigh : b.toNat ≤ 0xDF) :
    start b = ([], within 1 0x80 0xBF (b.toNat - 0xC0)) := by
  simp only [start, UInt8.le_iff_toNat_le, UInt8.reduceToNat, Bool.and_eq_true, decide_eq_true_eq]
  rw [if_neg (by omega), if_pos (by omega)]

lemma start_three (hlow : 0xE0 ≤ b.toNat) (hhigh : b.toNat ≤ 0xEF) :
    start b = ([], within 2 (if b.toNat = 0xE0 then 0xA0 else 0x80)
      (if b.toNat = 0xED then 0x9F else 0xBF) (b.toNat - 0xE0)) := by
  simp only [start, UInt8.le_iff_toNat_le, ← UInt8.toNat_inj, UInt8.reduceToNat, Bool.and_eq_true,
    decide_eq_true_eq]
  rw [if_neg (by omega), if_neg (by omega), if_pos (by omega)]

lemma start_four (hlow : 0xF0 ≤ b.toNat) (hhigh : b.toNat ≤ 0xF4) :
    start b = ([], within 3 (if b.toNat = 0xF0 then 0x90 else 0x80)
      (if b.toNat = 0xF4 then 0x8F else 0xBF) (b.toNat - 0xF0)) := by
  simp only [start, UInt8.le_iff_toNat_le, ← UInt8.toNat_inj, UInt8.reduceToNat, Bool.and_eq_true,
    decide_eq_true_eq]
  rw [if_neg (by omega), if_neg (by omega), if_neg (by omega), if_pos (by omega)]

/-- A byte that starts no character. -/
lemma start_invalid (h : 0x7F < b.toNat ∧ b.toNat < 0xC2 ∨ 0xDF < b.toNat ∧ b.toNat < 0xE0 ∨
    0xF4 < b.toNat) : start b = (CodeUnit.ofScalar replacement, ready) := by
  simp only [start, UInt8.le_iff_toNat_le, UInt8.reduceToNat, Bool.and_eq_true, decide_eq_true_eq]
  rw [if_neg (by omega), if_neg (by omega), if_neg (by omega), if_neg (by omega)]

/-- The last byte of a character. -/
lemma feed_last (hlow : low.toNat ≤ b.toNat) (hhigh : b.toNat ≤ high.toNat) :
    feed (within 1 low high value) b =
      (CodeUnit.ofScalar (value * 0x40 + b.toNat % 0x40), ready) := by
  simp [feed, UInt8.le_iff_toNat_le, hlow, hhigh]

lemma feed_within (hlow : low.toNat ≤ b.toNat) (hhigh : b.toNat ≤ high.toNat) :
    feed (within (n + 2) low high value) b =
      ([], within (n + 1) 0x80 0xBF (value * 0x40 + b.toNat % 0x40)) := by
  simp [feed, UInt8.le_iff_toNat_le, hlow, hhigh]

/-- A byte that cannot continue a character. -/
lemma feed_invalid (h : ¬ (low.toNat ≤ b.toNat ∧ b.toNat ≤ high.toNat)) :
    feed (within n low high value) b =
      (CodeUnit.ofScalar replacement ++ (start b).1, (start b).2) := by
  simp [feed, UInt8.le_iff_toNat_le, h]

/-! ### The characters that are awaited -/

/-- The code points that a decoder within a character can still read. -/
def Awaits (v : Nat) : Decoder → Prop
  | ready => False
  | within missing low high value =>
    v / 0x40 ^ missing = value ∧ low.toNat ≤ 0x80 + v / 0x40 ^ (missing - 1) % 0x40 ∧
      0x80 + v / 0x40 ^ (missing - 1) % 0x40 ≤ high.toNat

lemma awaits_two_iff (hlow : 0xC2 ≤ b.toNat) (hhigh : b.toNat ≤ 0xDF) :
    (start b).2.Awaits v ↔ b.toNat = 0xC0 + v / 0x40 := by
  simp only [start_two hlow hhigh, Awaits, UInt8.reduceToNat, Nat.reducePow, Nat.reduceSub]
  omega

/-- Of three bytes, the range of the second excludes overlong forms and surrogates. -/
lemma awaits_three_iff (hlow : 0xE0 ≤ b.toNat) (hhigh : b.toNat ≤ 0xEF) :
    (start b).2.Awaits v ↔
      b.toNat = 0xE0 + v / 0x1000 ∧ 0x800 ≤ v ∧ Text.isSurrogate v = false := by
  simp only [start_three hlow hhigh, Awaits, Text.isSurrogate_eq_false_iff, apply_ite UInt8.toNat,
    UInt8.reduceToNat, Nat.reducePow, Nat.reduceSub]
  split_ifs <;> omega

/-- Of four bytes, the range of the second excludes overlong forms and large values. -/
lemma awaits_four_iff (hlow : 0xF0 ≤ b.toNat) (hhigh : b.toNat ≤ 0xF4) :
    (start b).2.Awaits v ↔ b.toNat = 0xF0 + v / 0x40000 ∧ 0x10000 ≤ v ∧ v ≤ 0x10FFFF := by
  simp only [start_four hlow hhigh, Awaits, apply_ite UInt8.toNat, UInt8.reduceToNat,
    Nat.reducePow, Nat.reduceSub]
  split_ifs <;> omega

/-! ### What is decoded -/

/-- A state in which the decoder awaits characters only. -/
inductive IsSound : Decoder → Prop
  | ready : IsSound ready
  | within {n value : Nat} {low high : UInt8} (hlow : 0x80 ≤ low.toNat) (hhigh : high.toNat ≤ 0xBF)
      (hscalar : ∀ v, Awaits v (within (n + 1) low high value) → IsScalar v) :
      IsSound (within (n + 1) low high value)

/-- A first byte completes characters only, and only characters are awaited after it. -/
lemma start_sound (b : UInt8) : Text.IsPaired (start b).1 ∧ IsSound (start b).2 := by
  -- alone, first of two, of three, or of four bytes, or first of none
  obtain h | ⟨hlow, hhigh⟩ | ⟨hlow, hhigh⟩ | ⟨hlow, hhigh⟩ | h : b.toNat ≤ 0x7F ∨
      (0xC2 ≤ b.toNat ∧ b.toNat ≤ 0xDF) ∨ (0xE0 ≤ b.toNat ∧ b.toNat ≤ 0xEF) ∨
      (0xF0 ≤ b.toNat ∧ b.toNat ≤ 0xF4) ∨
      (0x7F < b.toNat ∧ b.toNat < 0xC2 ∨ 0xDF < b.toNat ∧ b.toNat < 0xE0 ∨ 0xF4 < b.toNat) := by
    omega
  · rw [start_one h]
    exact ⟨Text.isPaired_ofScalar (isScalar_iff.mpr (by omega)), .ready⟩
  · have hscalar (v : Nat) (hv : (start b).2.Awaits v) : IsScalar v := by
      rw [awaits_two_iff hlow hhigh] at hv
      rw [isScalar_iff]
      omega
    rw [start_two hlow hhigh] at hscalar ⊢
    exact ⟨Text.isPaired_nil, .within (by decide) (by decide) hscalar⟩
  · have hscalar (v : Nat) (hv : (start b).2.Awaits v) : IsScalar v := by
      obtain ⟨hv, -, hsurrogate⟩ := (awaits_three_iff hlow hhigh).mp hv
      exact ⟨by omega, hsurrogate⟩
    rw [start_three hlow hhigh] at hscalar ⊢
    refine ⟨Text.isPaired_nil, .within ?_ ?_ hscalar⟩ <;> split_ifs <;> decide
  · have hscalar (v : Nat) (hv : (start b).2.Awaits v) : IsScalar v := by
      rw [awaits_four_iff hlow hhigh] at hv
      rw [isScalar_iff]
      omega
    rw [start_four hlow hhigh] at hscalar ⊢
    refine ⟨Text.isPaired_nil, .within ?_ ?_ hscalar⟩ <;> split_ifs <;> decide
  · rw [start_invalid h]
    exact ⟨Text.isPaired_ofScalar isScalar_replacement, .ready⟩

/-- Whatever byte comes next, it completes characters only. -/
lemma IsSound.feed (h : IsSound d) (b : UInt8) :
    Text.IsPaired (d.feed b).1 ∧ IsSound (d.feed b).2 := by
  cases h with
  | ready => exact start_sound b
  | @within n value low high hlow hhigh hscalar =>
    by_cases hrange : low.toNat ≤ b.toNat ∧ b.toNat ≤ high.toNat
    · -- what is awaited after the byte was awaited before it
      have hbefore (v : Nat) (hv : v / 0x40 ^ n = value * 0x40 + b.toNat % 0x40) : IsScalar v := by
        apply hscalar
        rw [Awaits, Nat.pow_succ, ← Nat.div_div_eq_div_mul, Nat.add_sub_cancel, hv]
        omega
      cases n with
      | zero =>
        rw [feed_last hrange.1 hrange.2]
        exact ⟨Text.isPaired_ofScalar (hbefore _ (Nat.div_one _)), .ready⟩
      | succ n =>
        rw [feed_within hrange.1 hrange.2]
        exact ⟨Text.isPaired_nil, .within (by decide) (by decide) fun v hv => hbefore v hv.1⟩
    · obtain ⟨htext, hsound⟩ := start_sound b
      rw [feed_invalid hrange]
      exact ⟨(Text.isPaired_ofScalar isScalar_replacement).append htext, hsound⟩

end Decoder

lemma decodeFrom_cons (d : Decoder) (b : UInt8) (bytes : List UInt8) :
    decodeFrom d [] (b :: bytes) = (d.feed b).1 ++ decodeFrom (d.feed b).2 [] bytes := by
  rw [decodeFrom, decodeFrom_eq]
  simp

lemma isPaired_decodeFrom (h : d.IsSound) (bytes : List UInt8) :
    Text.IsPaired (decodeFrom d [] bytes) := by
  induction bytes generalizing d with
  | nil =>
    cases h with
    | ready => exact Text.isPaired_nil
    | within => exact Text.isPaired_ofScalar isScalar_replacement
  | cons b bytes ih =>
    obtain ⟨htext, hsound⟩ := h.feed b
    rw [decodeFrom_cons]
    exact htext.append (ih hsound)

/-- No bytes decode to half of a surrogate pair. -/
theorem isPaired_decode (bytes : List UInt8) : Text.IsPaired (decode bytes) :=
  isPaired_decodeFrom .ready bytes

/-! ### What is encoded -/

/-- The last `n` bytes of a code point. -/
def continuations (v : Nat) : Nat → List UInt8
  | 0 => []
  | n + 1 => continuation (v / 0x40 ^ n) :: continuations v n

lemma toNat_toUInt8 (h : v < 0x100) : v.toUInt8.toNat = v := by
  simpa using h

lemma toNat_continuation (v : Nat) : (continuation v).toNat = 0x80 + v % 0x40 := by
  rw [continuation, toNat_toUInt8 (by omega)]

/-- A character that is awaited is read with its last bytes. -/
lemma decodeFrom_continuations (h : (Decoder.within (n + 1) low high value).Awaits v)
    (bytes : List UInt8) :
    decodeFrom (.within (n + 1) low high value) [] (continuations v (n + 1) ++ bytes) =
      CodeUnit.ofScalar v ++ decode bytes := by
  induction n generalizing low high value with
  | zero =>
    obtain ⟨hvalue, hlow, hhigh⟩ := h
    rw [← toNat_continuation] at hlow hhigh
    have hread : value * 0x40 + (continuation v).toNat % 0x40 = v := by
      rw [toNat_continuation, ← hvalue]
      omega
    rw [continuations, Nat.pow_zero, Nat.div_one, List.cons_append, decodeFrom_cons,
      Decoder.feed_last (by simpa using hlow) (by simpa using hhigh), hread]
    rfl
  | succ n ih =>
    obtain ⟨hvalue, hlow, hhigh⟩ := h
    rw [Nat.add_sub_cancel, ← toNat_continuation] at hlow hhigh
    have hread : value * 0x40 + (continuation (v / 0x40 ^ (n + 1))).toNat % 0x40 =
        v / 0x40 ^ (n + 1) := by
      rw [toNat_continuation, ← hvalue, Nat.pow_succ _ (n + 1), ← Nat.div_div_eq_div_mul]
      omega
    have hawaits : (Decoder.within (n + 1) 0x80 0xBF (v / 0x40 ^ (n + 1))).Awaits v := by
      simp only [Decoder.Awaits, UInt8.reduceToNat, true_and]
      omega
    rw [continuations, List.cons_append, decodeFrom_cons, Decoder.feed_within hlow hhigh, hread,
      List.nil_append, ih hawaits]

lemma decode_of_awaits (hstart : Decoder.start b = ([], .within (n + 1) low high value))
    (h : (Decoder.start b).2.Awaits v) (bytes : List UInt8) :
    decode (b :: continuations v (n + 1) ++ bytes) = CodeUnit.ofScalar v ++ decode bytes := by
  rw [hstart] at h
  rw [decode, List.cons_append, decodeFrom_cons, Decoder.feed, hstart]
  exact decodeFrom_continuations h bytes

/-- An encoded character is decoded before the bytes that follow it. -/
theorem decode_encodeScalar_append (hv : IsScalar v) (bytes : List UInt8) :
    decode (encodeScalar v ++ bytes) = CodeUnit.ofScalar v ++ decode bytes := by
  obtain ⟨hle, hsurrogate⟩ := hv
  rw [encodeScalar, hsurrogate, if_neg Bool.false_ne_true]
  split_ifs with hone htwo hthree
  · have hb : v.toUInt8.toNat = v := toNat_toUInt8 (by omega)
    rw [decode, List.cons_append, decodeFrom_cons, Decoder.feed, Decoder.start_one (by omega), hb]
    rfl
  · have hb : (0xC0 + v / 0x40).toUInt8.toNat = 0xC0 + v / 0x40 := toNat_toUInt8 (by omega)
    have hawaits := (Decoder.awaits_two_iff (by omega) (by omega)).mpr hb
    have hlast : continuations v 1 = [continuation v] := by simp [continuations]
    rw [← hlast]
    exact decode_of_awaits (Decoder.start_two (by omega) (by omega)) hawaits bytes
  · have hb : (0xE0 + v / 0x1000).toUInt8.toNat = 0xE0 + v / 0x1000 := toNat_toUInt8 (by omega)
    have hawaits := (Decoder.awaits_three_iff (by omega) (by omega)).mpr
      ⟨hb, by omega, hsurrogate⟩
    have hlast : continuations v 2 = [continuation (v / 0x40), continuation v] := by
      simp [continuations]
    rw [← hlast]
    exact decode_of_awaits (Decoder.start_three (by omega) (by omega)) hawaits bytes
  · have hb : (0xF0 + v / 0x40000).toUInt8.toNat = 0xF0 + v / 0x40000 := toNat_toUInt8 (by omega)
    have hawaits := (Decoder.awaits_four_iff (by omega) (by omega)).mpr ⟨hb, by omega, hle⟩
    have hlast : continuations v 3 =
        [continuation (v / 0x1000), continuation (v / 0x40), continuation v] := by
      simp [continuations]
    rw [← hlast]
    exact decode_of_awaits (Decoder.start_four (by omega) (by omega)) hawaits bytes

/-- A text in which no half of a surrogate pair stands alone is read back as it was written. -/
theorem decode_encode (h : t.IsPaired) : decode (encode t) = t := by
  have hscalars (vs : List Nat) (hvs : ∀ v ∈ vs, IsScalar v) :
      decode (vs.flatMap encodeScalar) = vs.flatMap CodeUnit.ofScalar := by
    induction vs with
    | nil => rfl
    | cons v vs ih =>
      obtain ⟨hv, hvs⟩ := List.forall_mem_cons.mp hvs
      rw [List.flatMap_cons, List.flatMap_cons, decode_encodeScalar_append hv, ih hvs]
  rw [encode, hscalars _ h, Text.flatMap_ofScalar_scalars]

end Sprig.Utf8
