import Sprig.Json.Printer
import Sprig.Json.Reader
import Sprig.Proofs.Json.Grammar
import Sprig.Proofs.Text.Scalar

/-!
# Strings of documents

A string is read as the text that the grammar says it writes. A text that is written as a string is
one of these, whatever its units are: an escape names its unit, also half of a surrogate pair, and
the units that stand for themselves are no quotes, no backslashes and no controls.
-/

namespace Sprig

/-- The code points of a text are at most the greatest character. -/
lemma Text.le_of_mem_scalars {t : Text} {v : Nat} (h : v ∈ t.scalars) : v ≤ 0x10FFFF := by
  induction t generalizing v with
  | nil => simp at h
  | cons u t ih =>
    have hu := u.toNat_lt
    rw [scalars_cons] at h
    cases hvs : scalars t with
    | nil =>
      rw [hvs, consScalar, List.mem_singleton] at h
      omega
    | cons w vs =>
      rw [hvs] at h ih
      simp only [consScalar] at h
      split_ifs at h with hpair
      · rcases List.mem_cons.mp h with hv | h
        · simp only [Bool.and_eq_true, decide_eq_true_eq, CodeUnit.isHighSurrogate_iff] at hpair
          omega
        · exact ih (List.mem_cons_of_mem _ h)
      · rcases List.mem_cons.mp h with rfl | h
        · omega
        · exact ih h

namespace Json

variable {w t s read rest : Text} {u : CodeUnit} {v n : Nat}

/-! ### Escapes -/

lemma hexDigit?_eq_some_iff : hexDigit? u = some n ↔ IsHexDigit u n := by
  simp only [hexDigit?, IsHexDigit, Bool.and_eq_true, decide_eq_true_eq, UInt16.le_iff_toNat_le,
    UInt16.reduceToNat]
  split_ifs <;> simp only [Option.some.injEq, false_iff] <;> omega

lemma hexUnit?_eq_some_iff {a b c d : CodeUnit} : hexUnit? a b c d = some u ↔
    ∃ i j k l, IsHexDigit a i ∧ IsHexDigit b j ∧ IsHexDigit c k ∧ IsHexDigit d l ∧
      (i * 0x1000 + j * 0x100 + k * 0x10 + l).toUInt16 = u := by
  have hvalue (i j k l : Nat) :
      ((i * 16 + j) * 16 + k) * 16 + l = i * 0x1000 + j * 0x100 + k * 0x10 + l := by omega
  simp [hexUnit?, Option.bind_eq_some_iff, hexDigit?_eq_some_iff, hvalue]

lemma escaped?_eq_some_iff {e : CodeUnit} : escaped? e = some u ↔ (e, u) ∈ escapes := by
  simp only [escapes, List.mem_cons, Prod.mk.injEq, List.not_mem_nil, or_false, escaped?]
  constructor
  · intro h
    split_ifs at h with hself
    · cases h
      rcases hself with rfl | rfl | rfl <;> decide
    all_goals
      cases h
      simp [*]
  · rintro (⟨rfl, rfl⟩ | ⟨rfl, rfl⟩ | ⟨rfl, rfl⟩ | ⟨rfl, rfl⟩ | ⟨rfl, rfl⟩ | ⟨rfl, rfl⟩ |
      ⟨rfl, rfl⟩ | ⟨rfl, rfl⟩) <;> rfl

/-! ### Reading -/

/-- A unit that is written is read. -/
lemma readString?_writesUnit (h : WritesUnit w u) :
    readString? read (w ++ rest) = readString? (u :: read) rest := by
  have hquote : CodeUnit.backslash ≠ quote := by decide
  rw [readString?.eq_def]
  cases h with
  | plain hcontrol hquote hbackslash => simp [hquote, hbackslash, UInt16.not_lt.mpr hcontrol]
  | @escape e _ h =>
    have he : e ≠ 0x75 := by
      rintro rfl
      revert h
      simp [escapes]
    simp [hquote, he, escaped?_eq_some_iff.mpr h]
  | code ha hb hc hd =>
    have hunit := hexUnit?_eq_some_iff.mpr ⟨_, _, _, _, ha, hb, hc, hd, rfl⟩
    simp [hquote, hunit]

lemma readString?_writesUnits (h : WritesUnits w t) :
    readString? read (w ++ quote :: rest) = some (read.reverse ++ t, rest) := by
  induction h generalizing read with
  | nil =>
    rw [List.nil_append, readString?.eq_def]
    simp
  | cons hu _ ih => simp [List.append_assoc, readString?_writesUnit hu, ih]

lemma exists_writesUnits_cons (hu : WritesUnit w u)
    (h : ∃ w' t', WritesUnits w' t' ∧ s = (u :: read).reverse ++ t' ∧ t = w' ++ quote :: rest) :
    ∃ w' t', WritesUnits w' t' ∧ s = read.reverse ++ t' ∧ w ++ t = w' ++ quote :: rest := by
  obtain ⟨w', t', ht', rfl, rfl⟩ := h
  exact ⟨w ++ w', u :: t', .cons hu ht', by simp, by simp⟩

/-- The units that are read are written before a quote. -/
lemma exists_of_readString? (h : readString? read t = some (s, rest)) :
    ∃ w t', WritesUnits w t' ∧ s = read.reverse ++ t' ∧ t = w ++ quote :: rest := by
  fun_induction readString? read t with
  | case1 | case3 | case5 | case6 | case8 | case9 => cases h
  | case2 =>
    cases h
    exact ⟨[], [], .nil, by simp, rfl⟩
  | case4 _ a b c d _ _ hunit _ ih =>
    obtain ⟨_, _, _, _, ha, hb, hc, hd, rfl⟩ := hexUnit?_eq_some_iff.mp hunit
    exact exists_writesUnits_cons (.code ha hb hc hd) (ih h)
  | case7 _ _ _ _ _ hescaped _ ih =>
    exact exists_writesUnits_cons (.escape (escaped?_eq_some_iff.mp hescaped)) (ih h)
  | case10 _ _ _ hquote hbackslash hcontrol ih =>
    exact exists_writesUnits_cons (.plain (UInt16.not_lt.mp hcontrol) hquote hbackslash) (ih h)

/-! ### Writing -/

lemma isHexDigit_hexDigit (h : n < 16) : IsHexDigit (hexDigit n) n := by
  have hall : ∀ n < 16, hexDigit? (hexDigit n) = some n := by decide
  exact hexDigit?_eq_some_iff.mp (hall n h)

lemma writesUnit_escapeUnit (h : v < 0x10000) : WritesUnit (escapeUnit v) v.toUInt16 := by
  have hdigit (i : Nat) : IsHexDigit (hexDigit (i % 16)) (i % 16) :=
    isHexDigit_hexDigit (Nat.mod_lt _ (by decide))
  have hunit : v / 0x1000 % 16 * 0x1000 + v / 0x100 % 16 * 0x100 + v / 0x10 % 16 * 0x10 + v % 16 =
      v := by omega
  have hcode := WritesUnit.code (hdigit (v / 0x1000)) (hdigit (v / 0x100)) (hdigit (v / 0x10))
    (hdigit v)
  rwa [hunit] at hcode

lemma writesUnit_toUInt16 (hquote : v ≠ 0x22) (hbackslash : v ≠ 0x5C) (hcontrol : ¬ v < 0x20)
    (hlt : v < 0x10000) : WritesUnit [v.toUInt16] v.toUInt16 := by
  have hv := CodeUnit.toNat_toUInt16 hlt
  refine .plain ?_ ?_ ?_
  · rw [UInt16.le_iff_toNat_le, hv]
    exact Nat.not_lt.mp hcontrol
  · rwa [Ne, ← UInt16.toNat_inj, hv]
  · rwa [Ne, ← UInt16.toNat_inj, hv]

lemma WritesUnit.single (h : WritesUnit w u) : WritesUnits w [u] := by
  have hunits := WritesUnits.cons h .nil
  rwa [List.append_nil] at hunits

lemma WritesUnits.append {w' t' : Text} (h : WritesUnits w t) (h' : WritesUnits w' t') :
    WritesUnits (w ++ w') (t ++ t') := by
  induction h with
  | nil => exact h'
  | cons hu _ ih =>
    rw [List.append_assoc]
    exact .cons hu ih

/-- A code point is written as its units. -/
lemma writesUnits_escapeScalar (hle : v ≤ 0x10FFFF) :
    WritesUnits (escapeScalar v) (CodeUnit.ofScalar v) := by
  rw [escapeScalar]
  split_ifs with hquote hbackslash hb hf hn hr ht hescape
  · subst hquote
    exact (WritesUnit.escape (by decide)).single
  · subst hbackslash
    exact (WritesUnit.escape (by decide)).single
  · subst hb
    exact (WritesUnit.escape (by decide)).single
  · subst hf
    exact (WritesUnit.escape (by decide)).single
  · subst hn
    exact (WritesUnit.escape (by decide)).single
  · subst hr
    exact (WritesUnit.escape (by decide)).single
  · subst ht
    exact (WritesUnit.escape (by decide)).single
  · have hlt : v < 0x10000 := by
      rw [Bool.or_eq_true, decide_eq_true_eq, Text.isSurrogate_iff] at hescape
      omega
    rw [CodeUnit.ofScalar_of_lt hlt]
    exact (writesUnit_escapeUnit hlt).single
  · rw [Bool.or_eq_true, decide_eq_true_eq, not_or] at hescape
    by_cases hlt : v < 0x10000
    · rw [CodeUnit.ofScalar_of_lt hlt]
      exact (writesUnit_toUInt16 hquote hbackslash hescape.1 hlt).single
    · -- the halves of a pair are no quotes, no backslashes and no controls
      rw [CodeUnit.ofScalar, if_neg hlt]
      exact .cons (writesUnit_toUInt16 (by omega) (by omega) (by omega) (by omega))
        (writesUnit_toUInt16 (by omega) (by omega) (by omega) (by omega)).single

lemma writesUnits_flatMap {vs : List Nat} (h : ∀ v ∈ vs, v ≤ 0x10FFFF) :
    WritesUnits (vs.flatMap escapeScalar) (vs.flatMap CodeUnit.ofScalar) := by
  induction vs with
  | nil => exact .nil
  | cons v vs ih =>
    obtain ⟨hv, hvs⟩ := List.forall_mem_cons.mp h
    exact (writesUnits_escapeScalar hv).append (ih hvs)

/-- A text is written as a string of the grammar. -/
theorem writesString_renderString (t : Text) : WritesString (renderString t) t := by
  have hunits := writesUnits_flatMap fun v hv => Text.le_of_mem_scalars (t := t) hv
  rw [Text.flatMap_ofScalar_scalars] at hunits
  exact .quoted hunits

end Json

end Sprig
