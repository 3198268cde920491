import Mathlib.Data.List.DropRight
import Sprig.Proofs.Text.Blank
import Sprig.Proofs.Text.Lines

/-!
# Characters of texts

Every text is spelled by its code points. One in which no half of a surrogate pair stands alone is
made of characters only. Taking such a text apart at units that are in no pair, as lines and trimmed
pieces are, leaves it so.
-/

namespace Sprig

/-- A code point that is a character, and no half of a surrogate pair. -/
def IsScalar (v : Nat) : Prop := v ≤ 0x10FFFF ∧ Text.isSurrogate v = false

namespace Text

lemma isSurrogate_iff {v : Nat} : isSurrogate v ↔ 0xD800 ≤ v ∧ v ≤ 0xDFFF := by
  simp [isSurrogate]

lemma isSurrogate_eq_false_iff {v : Nat} : isSurrogate v = false ↔ v < 0xD800 ∨ 0xDFFF < v := by
  rw [← Bool.not_eq_true, isSurrogate_iff]
  omega

end Text

lemma isScalar_iff {v : Nat} : IsScalar v ↔ v ≤ 0x10FFFF ∧ (v < 0xD800 ∨ 0xDFFF < v) := by
  rw [IsScalar, Text.isSurrogate_eq_false_iff]

namespace CodeUnit

variable {u : CodeUnit} {v : Nat}

lemma isHighSurrogate_iff : u.isHighSurrogate ↔ 0xD800 ≤ u.toNat ∧ u.toNat ≤ 0xDBFF := by
  simp [isHighSurrogate, UInt16.le_iff_toNat_le]

lemma isSurrogate_of_isHighSurrogate (h : u.isHighSurrogate) : Text.isSurrogate u.toNat := by
  rw [isHighSurrogate_iff] at h
  rw [Text.isSurrogate_iff]
  omega

/-- No blank is half of a pair. -/
lemma isSurrogate_of_isBlank (h : u.isBlank) : Text.isSurrogate u.toNat = false := by
  rw [Text.isSurrogate_eq_false_iff]
  simp only [isBlank, Bool.or_eq_true, Bool.and_eq_true, decide_eq_true_eq, beq_iff_eq,
    UInt16.le_iff_toNat_le, ← UInt16.toNat_inj] at h
  simp only [UInt16.reduceToNat] at h
  omega

lemma toNat_toUInt16 (h : v < 0x10000) : v.toUInt16.toNat = v := by
  simpa using h

/-! ### Spelling a code point -/

lemma ofScalar_of_lt (h : v < 0x10000) : ofScalar v = [v.toUInt16] := by
  simp [ofScalar, h]

lemma ofScalar_toNat (u : CodeUnit) : ofScalar u.toNat = [u] := by
  rw [ofScalar_of_lt u.toNat_lt]
  simp

/-- A character beyond the basic plane is spelled by the pair that it is joined from. -/
lemma ofScalar_joined {high low : Nat} (hhigh : 0xD800 ≤ high ∧ high ≤ 0xDBFF)
    (hlow : 0xDC00 ≤ low ∧ low ≤ 0xDFFF) :
    ofScalar (0x10000 + (high - 0xD800) * 0x400 + (low - 0xDC00)) =
      [high.toUInt16, low.toUInt16] := by
  generalize hv : 0x10000 + (high - 0xD800) * 0x400 + (low - 0xDC00) = v
  have hfirst : 0xD800 + (v - 0x10000) / 0x400 = high := by omega
  have hsecond : 0xDC00 + (v - 0x10000) % 0x400 = low := by omega
  rw [ofScalar, if_neg (by omega), hfirst, hsecond]

end CodeUnit

namespace Text

variable {t w x y : Text} {u : CodeUnit} {v : Nat} {vs : List Nat}

/-! ### Code points of a text -/

lemma consScalar_of_not_isHighSurrogate (h : u.isHighSurrogate = false) (vs : List Nat) :
    consScalar u vs = u.toNat :: vs := by
  cases vs <;> simp [consScalar, h]

/-- A unit that is in no pair parts the code points. -/
lemma scalars_append_cons (hu : isSurrogate u.toNat = false) (x y : Text) :
    scalars (x ++ u :: y) = scalars x ++ u.toNat :: scalars y := by
  induction x with
  | nil =>
    have hhigh : u.isHighSurrogate = false := by
      rw [← Bool.not_eq_true]
      intro hhigh
      simp [CodeUnit.isSurrogate_of_isHighSurrogate hhigh] at hu
    simp [consScalar_of_not_isHighSurrogate hhigh]
  | cons w x ih =>
    rw [List.cons_append, scalars_cons, ih, scalars_cons]
    cases scalars x with
    | nil =>
      have hlow : ¬ (0xDC00 ≤ u.toNat ∧ u.toNat ≤ 0xDFFF) := by
        rw [isSurrogate_eq_false_iff] at hu
        omega
      simp only [consScalar, List.nil_append, List.singleton_append]
      rw [if_neg]
      simpa using fun _ h => by simpa using fun h' => hlow ⟨h, h'⟩
    | cons v vs =>
      simp only [consScalar, List.cons_append]
      split <;> rfl

/-- A text is spelled by its code points. -/
theorem flatMap_ofScalar_scalars (t : Text) : t.scalars.flatMap CodeUnit.ofScalar = t := by
  induction t with
  | nil => rfl
  | cons u t ih =>
    rw [scalars_cons]
    cases hvs : scalars t with
    | nil =>
      rw [hvs] at ih
      simp [consScalar, CodeUnit.ofScalar_toNat, ← ih]
    | cons v vs =>
      rw [hvs, List.flatMap_cons] at ih
      simp only [consScalar]
      split_ifs with hpair
      · simp only [Bool.and_eq_true, decide_eq_true_eq, CodeUnit.isHighSurrogate_iff] at hpair
        obtain ⟨⟨hhigh, hlow⟩, hlow'⟩ := hpair
        rw [CodeUnit.ofScalar_of_lt (by omega)] at ih
        rw [List.flatMap_cons, CodeUnit.ofScalar_joined hhigh ⟨hlow, hlow'⟩, ← ih]
        simp
      · rw [List.flatMap_cons, List.flatMap_cons, ih, CodeUnit.ofScalar_toNat]
        rfl

lemma scalars_ofScalar_append (hv : IsScalar v) (t : Text) :
    scalars (CodeUnit.ofScalar v ++ t) = v :: scalars t := by
  obtain ⟨hle, hsurrogate⟩ := hv
  by_cases hlt : v < 0x10000
  · have hv : v.toUInt16.toNat = v := CodeUnit.toNat_toUInt16 hlt
    have hparts := scalars_append_cons (u := v.toUInt16) (by rwa [hv]) [] t
    rw [CodeUnit.ofScalar_of_lt hlt]
    simpa [hv] using hparts
  · -- the two units of a pair are joined again
    have hhigh : (0xD800 + (v - 0x10000) / 0x400).toUInt16.toNat =
        0xD800 + (v - 0x10000) / 0x400 := CodeUnit.toNat_toUInt16 (by omega)
    have hlow : (0xDC00 + (v - 0x10000) % 0x400).toUInt16.toNat =
        0xDC00 + (v - 0x10000) % 0x400 := CodeUnit.toNat_toUInt16 (by omega)
    have hnot : CodeUnit.isHighSurrogate (0xDC00 + (v - 0x10000) % 0x400).toUInt16 = false := by
      rw [← Bool.not_eq_true, CodeUnit.isHighSurrogate_iff, hlow]
      omega
    have hpair : CodeUnit.isHighSurrogate (0xD800 + (v - 0x10000) / 0x400).toUInt16 := by
      rw [CodeUnit.isHighSurrogate_iff, hhigh]
      omega
    have hjoined : 0x10000 + (0xD800 + (v - 0x10000) / 0x400 - 0xD800) * 0x400 +
        (0xDC00 + (v - 0x10000) % 0x400 - 0xDC00) = v := by
      omega
    rw [CodeUnit.ofScalar, if_neg hlt, List.cons_append, List.cons_append, List.nil_append,
      scalars_cons, scalars_cons, consScalar_of_not_isHighSurrogate hnot, hlow, consScalar, hhigh,
      hjoined, if_pos]
    simp only [hpair, Bool.true_and, Bool.and_eq_true, decide_eq_true_eq]
    omega

lemma scalars_flatMap_ofScalar (h : ∀ v ∈ vs, IsScalar v) :
    scalars (vs.flatMap CodeUnit.ofScalar) = vs := by
  induction vs with
  | nil => rfl
  | cons v vs ih =>
    obtain ⟨hv, hvs⟩ := List.forall_mem_cons.mp h
    rw [List.flatMap_cons, scalars_ofScalar_append hv, ih hvs]

/-! ### Texts without halves of pairs -/

/-- A text in which no half of a surrogate pair stands alone. -/
def IsPaired (t : Text) : Prop := ∀ v ∈ t.scalars, IsScalar v

lemma isPaired_flatMap_ofScalar (h : ∀ v ∈ vs, IsScalar v) :
    IsPaired (vs.flatMap CodeUnit.ofScalar) := by
  rwa [IsPaired, scalars_flatMap_ofScalar h]

lemma isPaired_nil : IsPaired [] := by simp [IsPaired]

lemma isPaired_ofScalar (h : IsScalar v) : IsPaired (CodeUnit.ofScalar v) := by
  simpa using isPaired_flatMap_ofScalar (List.forall_mem_singleton.mpr h)

lemma IsPaired.append (hx : IsPaired x) (hy : IsPaired y) : IsPaired (x ++ y) := by
  rw [← flatMap_ofScalar_scalars x, ← flatMap_ofScalar_scalars y, ← List.flatMap_append]
  refine isPaired_flatMap_ofScalar fun v hv => ?_
  exact (List.mem_append.mp hv).elim (hx v) (hy v)

lemma isPaired_append_cons_iff (hu : isSurrogate u.toNat = false) :
    IsPaired (x ++ u :: y) ↔ IsPaired x ∧ IsPaired y := by
  have hscalar : IsScalar u.toNat := ⟨by have := u.toNat_lt; omega, hu⟩
  simp only [IsPaired, scalars_append_cons hu, List.forall_mem_append, List.forall_mem_cons,
    hscalar, true_and]

lemma isPaired_cons_iff (hu : isSurrogate u.toNat = false) : IsPaired (u :: y) ↔ IsPaired y := by
  simpa [isPaired_nil] using isPaired_append_cons_iff (x := []) hu

lemma isPaired_of_forall (h : ∀ u ∈ t, isSurrogate u.toNat = false) : IsPaired t := by
  induction t with
  | nil => exact isPaired_nil
  | cons u t ih =>
    obtain ⟨hu, ht⟩ := List.forall_mem_cons.mp h
    exact (isPaired_cons_iff hu).mpr (ih ht)

/-! ### Trimming -/

lemma IsPaired.trimStart (h : IsPaired t) : IsPaired t.trimStart := by
  induction t with
  | nil => exact h
  | cons u t ih =>
    rw [Text.trimStart, List.dropWhile_cons]
    split_ifs with hblank
    · exact ih ((isPaired_cons_iff (CodeUnit.isSurrogate_of_isBlank hblank)).mp h)
    · exact h

lemma IsPaired.trimEnd (h : IsPaired t) : IsPaired t.trimEnd := by
  rw [show t.trimEnd = t.rdropWhile CodeUnit.isBlank from rfl]
  induction t using List.reverseRecOn with
  | nil => exact h
  | append_singleton t u ih =>
    rw [List.rdropWhile_concat]
    split_ifs with hblank
    · exact ih ((isPaired_append_cons_iff (CodeUnit.isSurrogate_of_isBlank hblank)).mp h).1
    · exact h

lemma IsPaired.trim (h : IsPaired t) : IsPaired t.trim := h.trimStart.trimEnd

/-! ### Lines -/

/-- The pieces of a text that is split, after something that stands before it. -/
lemma IsPaired.of_split {separator : CodeUnit} (hseparator : isSurrogate separator.toNat = false)
    {pieces : List Text} (h : IsPaired (x ++ t)) (hsplit : split separator t = w :: pieces) :
    IsPaired (x ++ w) ∧ ∀ piece ∈ pieces, IsPaired piece := by
  induction t generalizing x w pieces with
  | nil =>
    obtain ⟨rfl, rfl⟩ := by simpa using hsplit
    simpa using h
  | cons u t ih =>
    obtain ⟨piece, pieces', htail⟩ := List.exists_cons_of_ne_nil (split_ne_nil separator t)
    rw [split_cons, htail, consPiece] at hsplit
    split_ifs at hsplit with hu
    · obtain ⟨rfl, rfl⟩ := List.cons_eq_cons.mp hsplit
      rw [hu, isPaired_append_cons_iff hseparator] at h
      have hpieces := ih (x := []) h.2 htail
      rw [List.append_nil, List.forall_mem_cons]
      exact ⟨h.1, hpieces⟩
    · obtain ⟨rfl, rfl⟩ := List.cons_eq_cons.mp hsplit
      have hpieces := ih (x := x ++ [u]) (by simpa using h) htail
      simpa using hpieces

lemma IsPaired.dropReturn (h : IsPaired t) : IsPaired t.dropReturn := by
  rw [Text.dropReturn]
  split_ifs with hreturn
  · obtain ⟨w, rfl⟩ := List.getLast?_eq_some_iff.mp hreturn
    rw [List.dropLast_concat]
    exact ((isPaired_append_cons_iff (by decide)).mp h).1
  · exact h

lemma IsPaired.of_mem_lines (h : IsPaired t) (hw : w ∈ lines t) : IsPaired w := by
  refine forall_mem_lines (p := IsPaired) (fun _ hpiece => hpiece.dropReturn) ?_ w hw
  obtain ⟨piece, pieces, hsplit⟩ :=
    List.exists_cons_of_ne_nil (split_ne_nil CodeUnit.lineFeed t)
  rw [hsplit, List.forall_mem_cons]
  exact h.of_split (x := []) (by decide) hsplit

lemma isPaired_unlines {ls : List Text} (h : ∀ l ∈ ls, IsPaired l) : IsPaired (unlines ls) := by
  induction ls with
  | nil => exact isPaired_nil
  | cons l ls ih =>
    obtain ⟨hl, hls⟩ := List.forall_mem_cons.mp h
    rw [unlines_cons]
    exact (isPaired_append_cons_iff (by decide)).mpr ⟨hl, ih hls⟩

end Text

end Sprig
