import Sprig.Json.Reader
import Sprig.Proofs.Json.Grammar
import Sprig.Proofs.Number.Digits

/-!
# Numbers of documents

A number is read as the decimal number that the grammar says it writes, if nothing follows it that a
number could go on with. A decimal number that is written is one of these.
-/

namespace Sprig.Json

variable {w t rest : Text} {u : CodeUnit} {d : Decimal}

/-! ### Reading -/

/-- A text that no number goes on with. -/
def EndsNumber (rest : Text) : Prop :=
  ∀ u ∈ rest.head?, u.isDigit = false ∧ u ≠ CodeUnit.point ∧ u ≠ 0x65 ∧ u ≠ 0x45

lemma endsNumber_nil : EndsNumber [] := by simp [EndsNumber]

lemma endsNumber_cons : EndsNumber (u :: rest) ↔
    u.isDigit = false ∧ u ≠ CodeUnit.point ∧ u ≠ 0x65 ∧ u ≠ 0x45 := by
  simp [EndsNumber]

lemma head?_any_eq_false (h : ∀ u ∈ rest.head?, u.isDigit = false) :
    rest.head?.any CodeUnit.isDigit = false := by
  cases rest with
  | nil => rfl
  | cons u rest => simpa using h u rfl

lemma leadingDigits_append_afterDigits (t : Text) : t.leadingDigits ++ t.afterDigits = t :=
  List.takeWhile_append_dropWhile

lemma isDigits_leadingDigits (h : t.leadingDigits ≠ []) : t.leadingDigits.isDigits :=
  Text.isDigits_iff.mpr ⟨h, List.all_takeWhile⟩

/-- Digits come out whole if no digit follows them. -/
lemma leadingDigits_isDigits_append (h : t.isDigits)
    (hrest : rest.head?.any CodeUnit.isDigit = false) :
    (t ++ rest).leadingDigits = t ∧ (t ++ rest).afterDigits = rest ∧ t ≠ [] := by
  obtain ⟨hne, hall⟩ := Text.isDigits_iff.mp h
  exact ⟨Text.leadingDigits_append hall hrest, Text.afterDigits_append hall hrest, hne⟩

/-- A sign is taken from digits. -/
lemma takeSign_append {negative : Bool} (hsign : WritesSign w negative) (h : t.isDigits)
    (rest : Text) : Text.takeSign (w ++ (t ++ rest)) = (negative, t ++ rest) := by
  cases hsign with
  | none => exact Text.takeSign_of_isDigits_append h rest
  | plus | minus => rfl

lemma exists_of_takeSign (t : Text) :
    ∃ w, WritesSign w (Text.takeSign t).1 ∧ t = w ++ (Text.takeSign t).2 := by
  cases t with
  | nil => exact ⟨[], .none, rfl⟩
  | cons u t =>
    rw [Text.takeSign]
    split_ifs with hminus hplus
    · exact ⟨[u], hminus ▸ .minus, rfl⟩
    · exact ⟨[u], hplus ▸ .plus, rfl⟩
    · exact ⟨[], .none, rfl⟩

lemma takeExponent?_append {exponent : Int} (h : WritesExponent w exponent)
    (hrest : EndsNumber rest) : Text.takeExponent? (w ++ rest) = some (exponent, rest) := by
  cases h with
  | none =>
    cases rest with
    | nil => rfl
    | cons u rest => simp [Text.takeExponent?, (hrest u rfl).2.2]
  | mark he hsign h =>
    have hdigit := head?_any_eq_false fun u hu => (hrest u hu).1
    obtain ⟨hleading, hafter, hne⟩ := leadingDigits_isDigits_append h hdigit
    simp [Text.takeExponent?, he, takeSign_append hsign h, hleading, hafter, hne]

lemma exists_of_takeExponent? {exponent : Int} (h : Text.takeExponent? t = some (exponent, rest)) :
    ∃ w, WritesExponent w exponent ∧ t = w ++ rest := by
  cases t with
  | nil =>
    cases h
    exact ⟨[], .none, rfl⟩
  | cons e t =>
    rw [Text.takeExponent?] at h
    by_cases he : e = 0x65 ∨ e = 0x45
    · obtain ⟨sign, hsign, ht⟩ := exists_of_takeSign t
      rw [if_pos he] at h
      generalize Text.takeSign t = taken at h hsign ht
      obtain ⟨hne, h⟩ := (Option.ite_none_left_eq_some ..).mp h
      obtain ⟨rfl, rfl⟩ := Prod.mk.inj (Option.some.inj h)
      have hdigits := isDigits_leadingDigits (by simpa using hne)
      refine ⟨_, .mark he hsign hdigits, ?_⟩
      rw [List.cons_append, List.append_assoc, leadingDigits_append_afterDigits, ← ht]
    · rw [if_neg he] at h
      cases h
      exact ⟨[], .none, rfl⟩

lemma readFraction?_append {fraction : Text} (h : WritesFraction w fraction)
    (hrest : ∀ u ∈ rest.head?, u.isDigit = false ∧ u ≠ CodeUnit.point) :
    readFraction? (w ++ rest) = some (fraction, rest) := by
  cases h with
  | none =>
    cases rest with
    | nil => rfl
    | cons u rest => simp [readFraction?, (hrest u rfl).2]
  | point h =>
    have hdigit := head?_any_eq_false fun u hu => (hrest u hu).1
    obtain ⟨hleading, hafter, hne⟩ := leadingDigits_isDigits_append h hdigit
    simp [readFraction?, hleading, hafter, hne]

lemma exists_of_readFraction? {fraction : Text} (h : readFraction? t = some (fraction, rest)) :
    ∃ w, WritesFraction w fraction ∧ t = w ++ rest := by
  cases t with
  | nil =>
    cases h
    exact ⟨[], .none, rfl⟩
  | cons u t =>
    simp only [readFraction?] at h
    split_ifs at h with hpoint hempty
    · obtain ⟨rfl, rfl⟩ := Prod.mk.inj (Option.some.inj h)
      have hdigits := isDigits_leadingDigits (by simpa using hempty)
      refine ⟨_, .point hdigits, ?_⟩
      rw [List.cons_append, leadingDigits_append_afterDigits, hpoint]
    · cases h
      exact ⟨[], .none, rfl⟩

/-- What stands after the digits of a number does not go on with them. -/
lemma WritesExponent.head?_append {exponent : Int} (h : WritesExponent w exponent)
    (hrest : EndsNumber rest) :
    ∀ u ∈ (w ++ rest).head?, u.isDigit = false ∧ u ≠ CodeUnit.point := by
  cases h with
  | none => exact fun u hu => ⟨(hrest u hu).1, (hrest u hu).2.1⟩
  | @mark e _ _ _ he =>
    intro u hu
    obtain rfl : e = u := by simpa using hu
    rcases he with rfl | rfl <;> decide

lemma WritesFraction.head?_append {fraction : Text} (h : WritesFraction w fraction)
    (hrest : ∀ u ∈ rest.head?, u.isDigit = false) :
    ∀ u ∈ (w ++ rest).head?, u.isDigit = false := by
  cases h with
  | none => exact hrest
  | point =>
    intro u hu
    obtain rfl : CodeUnit.point = u := by simpa using hu
    decide

/-- The digits before a point, as they are checked. -/
lemma isWhole_iff (h : t.all CodeUnit.isDigit) : IsWhole t ↔
    (t.isEmpty || (decide (t.head? = some 0x30) && decide (1 < t.length))) = false := by
  cases t with
  | nil => simp [IsWhole, Text.isDigits]
  | cons u t => cases t <;> simp_all [IsWhole, Text.isDigits]

lemma readUnsigned?_append {negative : Bool} (h : WritesUnsigned negative w d)
    (hrest : EndsNumber rest) : readUnsigned? negative (w ++ rest) = some (d, rest) := by
  cases h with
  | @mk whole f fraction x exponent hwhole hfraction hexponent =>
    obtain ⟨-, hall⟩ := Text.isDigits_iff.mp hwhole.1
    have hx := hexponent.head?_append hrest
    have hf := head?_any_eq_false (hfraction.head?_append fun u hu => (hx u hu).1)
    obtain ⟨hleading, hafter, -⟩ := leadingDigits_isDigits_append hwhole.1 hf
    simp [readUnsigned?, hleading, hafter, (isWhole_iff hall).mp hwhole,
      readFraction?_append hfraction hx, takeExponent?_append hexponent hrest, Decimal.ofParts]

lemma exists_of_readUnsigned? {negative : Bool} {d : Decimal}
    (h : readUnsigned? negative t = some (d, rest)) :
    ∃ w, WritesUnsigned negative w d ∧ t = w ++ rest := by
  obtain ⟨hwhole, h⟩ := (Option.ite_none_left_eq_some ..).mp h
  obtain ⟨⟨fraction, rest'⟩, hfraction, h⟩ := Option.bind_eq_some_iff.mp h
  obtain ⟨⟨exponent, rest''⟩, hexponent, h⟩ := Option.bind_eq_some_iff.mp h
  obtain ⟨rfl, rfl⟩ := Prod.mk.inj (Option.some.inj h)
  have hall : t.leadingDigits.all CodeUnit.isDigit := List.all_takeWhile
  obtain ⟨f, hf, hafter⟩ := exists_of_readFraction? hfraction
  obtain ⟨x, hx, rfl⟩ := exists_of_takeExponent? hexponent
  refine ⟨_, .mk ((isWhole_iff hall).mpr (by simpa using hwhole)) hf hx, ?_⟩
  rw [List.append_assoc, List.append_assoc, ← hafter, leadingDigits_append_afterDigits]

/-- The first digit of a number is no sign. -/
lemma WritesUnsigned.exists_eq_cons {negative : Bool} {d : Decimal}
    (h : WritesUnsigned negative w d) : ∃ u t, w = u :: t ∧ u.isDigit := by
  cases h with
  | @mk whole f _ x _ hwhole =>
    obtain ⟨u, t, rfl, hu⟩ := Text.exists_eq_cons_of_isDigits hwhole.1
    exact ⟨u, t ++ (f ++ x), rfl, hu⟩

/-- The units that a number starts with. -/
def startsNumber (u : CodeUnit) : Bool := u.isDigit || u == CodeUnit.minus

lemma WritesNumber.exists_eq_cons (h : WritesNumber w d) :
    ∃ u t, w = u :: t ∧ startsNumber u := by
  cases h with
  | minus => exact ⟨_, _, rfl, by decide⟩
  | unsigned h =>
    obtain ⟨u, t, rfl, hu⟩ := h.exists_eq_cons
    exact ⟨u, t, rfl, by simp [startsNumber, hu]⟩

/-- A number is read up to its end. -/
lemma readNumber?_append (h : WritesNumber w d) (hrest : EndsNumber rest) :
    readNumber? (w ++ rest) = some (d, rest) := by
  cases h with
  | unsigned h =>
    have hread := readUnsigned?_append h hrest
    obtain ⟨u, t, rfl, hu⟩ := h.exists_eq_cons
    rw [List.cons_append] at hread ⊢
    rw [readNumber?, if_neg (CodeUnit.ne_of_holds hu (by decide)), hread]
  | minus h => exact readUnsigned?_append h hrest

/-- What is read as a number writes it. -/
lemma exists_of_readNumber? (h : readNumber? t = some (d, rest)) :
    ∃ w, WritesNumber w d ∧ t = w ++ rest := by
  cases t with
  | nil => cases h
  | cons u t =>
    rw [readNumber?] at h
    split_ifs at h with hminus
    · obtain ⟨w, hw, rfl⟩ := exists_of_readUnsigned? h
      exact ⟨_, .minus hw, by rw [hminus, List.cons_append]⟩
    · obtain ⟨w, hw, ht⟩ := exists_of_readUnsigned? h
      exact ⟨w, .unsigned hw, ht⟩

/-! ### Writing -/

lemma isWhole_ofNat (n : Nat) : IsWhole (Text.ofNat n) := by
  refine ⟨Text.isDigits_ofNat n, fun hhead => ?_⟩
  obtain ⟨u, hu⟩ := List.length_eq_one_iff.mp (Text.length_ofNat_of_head? hhead)
  rw [hu] at hhead ⊢
  rw [Option.some.inj hhead]

lemma writesExponent_ofInt (e : Int) : WritesExponent (0x65 :: Text.ofInt e) e := by
  cases e with
  | ofNat n =>
    have h := WritesExponent.mark (Or.inl rfl) .none (Text.isDigits_ofNat n)
    rwa [if_neg (by decide), Text.toNat_ofNat] at h
  | negSucc n =>
    have h := WritesExponent.mark (Or.inl rfl) .minus (Text.isDigits_ofNat (n + 1))
    rwa [if_pos rfl, Text.toNat_ofNat] at h

lemma writesExponent_exponentText (d : Decimal) : WritesExponent d.exponentText d.exponent := by
  rw [Decimal.exponentText]
  split_ifs with hzero
  · rw [hzero]
    exact .none
  · exact writesExponent_ofInt d.exponent

lemma writesUnsigned_ofNat_append (d : Decimal) :
    WritesUnsigned d.negative (Text.ofNat d.mantissa ++ d.exponentText) d := by
  have h := @WritesUnsigned.mk d.negative _ _ _ _ _ (isWhole_ofNat d.mantissa) .none
    (writesExponent_exponentText d)
  rwa [List.append_nil, Text.toNat_ofNat, List.nil_append, List.length_nil, Int.natCast_zero,
    Int.sub_zero] at h

/-- A decimal number is written as a number of the grammar. -/
theorem writesNumber_toText (d : Decimal) : WritesNumber d.toText d := by
  have h := writesUnsigned_ofNat_append d
  rw [Decimal.toText, Decimal.signText, List.append_assoc]
  split_ifs with hnegative
  · rw [hnegative] at h
    exact .minus h
  · rw [Bool.not_eq_true] at hnegative
    rw [hnegative] at h
    exact .unsigned h

end Sprig.Json
