import Sprig.Proofs.Format.Layout
import Sprig.Proofs.Token.Stray

/-!
# Units that cannot be formatted

Formatting reads the tokens of a text whose blanks have been collapsed and trimmed. This neither
makes stray units nor takes any away, it keeps their order, and a minus sign has a digit after it if
it had one before. So formatting fails at the first stray unit of the text as it was written, and
only its place is that in the collapsed text.
-/

namespace Sprig.Text

variable {source : Text} {p q : Nat} {unit : CodeUnit}

/-! ### Places -/

/-- How many units are before a place once the blanks at the start are gone and every run of blanks
is one space. -/
def collapsedPlace (source : Text) (p : Nat) : Nat := (trimStart (source.take p)).collapse.length

lemma collapsedPlace_append (before rest : Text) :
    (before ++ rest).collapsedPlace before.length = before.trimStart.collapse.length := by
  rw [collapsedPlace, List.take_left]

/-- A unit that is no blank counts for the places after it. -/
lemma collapsedPlace_lt (h : source.IsStray CodeUnit.isBlank p unit) (hpq : p < q) :
    source.collapsedPlace p < source.collapsedPlace q := by
  obtain ⟨before, rest, rfl, rfl⟩ := h.exists_append
  obtain ⟨n, rfl⟩ : ∃ n, q = before.length + (n + 1) := ⟨q - before.length - 1, by omega⟩
  rw [collapsedPlace_append, collapsedPlace, List.take_length_add_append, List.take_succ_cons,
    trimStart_append_cons h.separates_eq, collapse_append_cons h.separates_eq, List.length_append,
    List.length_cons]
  omega

/-! ### Stray units -/

lemma any_isDigit_trimEnd_collapse (t : Text) :
    t.collapse.trimEnd.head?.any CodeUnit.isDigit = t.head?.any CodeUnit.isDigit :=
  any_head?_trimEnd_collapse
    (fun _ h => CodeUnit.isBlank_of_isAlphanumeric (CodeUnit.isAlphanumeric_of_isDigit h)) t

/-- A stray unit is still one when the text has been collapsed and trimmed. -/
lemma IsStray.trim_collapse (h : source.IsStray CodeUnit.isBlank p unit) :
    source.collapse.trim.IsStray (· = CodeUnit.space) (source.collapsedPlace p) unit := by
  obtain ⟨before, rest, rfl, rfl⟩ := h.exists_append
  obtain ⟨hblank, hnone⟩ := (isStray_append_iff (by decide) before).mp h
  have hne : unit ≠ CodeUnit.space := by
    rintro rfl
    exact absurd hblank (by decide)
  rw [collapsedPlace_append, trim_collapse_append_cons hblank, isStray_append_iff (by simp),
    lexeme?_cons_congr (any_isDigit_trimEnd_collapse rest)]
  exact ⟨by simpa using hne, hnone⟩

/-- There are no other ones. -/
lemma exists_isStray_of_trim_collapse
    (h : source.collapse.trim.IsStray (· = CodeUnit.space) q unit) :
    ∃ p, source.IsStray CodeUnit.isBlank p unit ∧ source.collapsedPlace p = q := by
  obtain ⟨before, after, htrim, rfl⟩ := h.exists_append
  rw [htrim] at h
  obtain ⟨hspace, hnone⟩ := (isStray_append_iff (by simp) before).mp h
  obtain ⟨w, rest, rfl, hblank, rfl, rfl⟩ :=
    exists_append_of_trim_collapse htrim (by simpa using hspace)
  rw [lexeme?_cons_congr (any_isDigit_trimEnd_collapse rest)] at hnone
  exact ⟨w.length, (isStray_append_iff (by decide) w).mpr ⟨hblank, hnone⟩,
    collapsedPlace_append w _⟩

lemma IsFirstStray.trim_collapse (h : source.IsFirstStray CodeUnit.isBlank p unit) :
    source.collapse.trim.IsFirstStray (· = CodeUnit.space) (source.collapsedPlace p) unit where
  isStray := h.isStray.trim_collapse
  first := by
    intro q hq other hother
    obtain ⟨p', hp', rfl⟩ := exists_isStray_of_trim_collapse hother
    rcases Nat.lt_trichotomy p' p with hlt | rfl | hlt
    · exact h.first p' hlt other hp'
    · exact lt_irrefl _ hq
    · exact lt_asymm hq (collapsedPlace_lt h.isStray hlt)

end Sprig.Text

namespace Sprig.Format

/-- Formatting an expression fails if and only if its text has a stray unit, and the error names the
first one, at its place in the collapsed text. -/
theorem exists_expression_eq_error_iff (source : Text) :
    ((∃ c, expression source = .error c) ↔
      ∃ p unit, source.IsStray CodeUnit.isBlank p unit) ∧
    ∀ c, expression source = .error c →
      ∃ p unit, source.IsFirstStray CodeUnit.isBlank p unit ∧
        c.NamesUnit unit (source.collapsedPlace p) := by
  apply Text.fails_iff_isStray
  · intro p unit h
    exact expression_eq_error_iff.mpr (Text.tokens_eq_error_of_isFirstStray h.trim_collapse)
  · intro c h
    obtain ⟨q, unit, hunit⟩ := Text.exists_isStray_of_tokens (expression_eq_error_iff.mp h)
    obtain ⟨p, hp, -⟩ := Text.exists_isStray_of_trim_collapse hunit
    exact ⟨p, unit, hp⟩

/-- A line feed parts a minus sign from the digit after it, and two blanks before it are one. -/
theorem exists_expression_eq_error_iff_minus :
    (∃ p unit, ("\t(add \u00a01 -\n2)" : Text).IsStray CodeUnit.isBlank p unit) ∧
    ∃ c, expression "\t(add \u00a01 -\n2)" = .error c ∧
      ("\t(add \u00a01 -\n2)" : Text).IsFirstStray CodeUnit.isBlank 9 CodeUnit.minus ∧
      c.NamesUnit CodeUnit.minus 7 := by
  have hexpression : expression "\t(add \u00a01 -\n2)" =
      .error (.unexpectedUnit CodeUnit.minus 7) := by decide +kernel
  obtain ⟨hiff, hnames⟩ := exists_expression_eq_error_iff "\t(add \u00a01 -\n2)"
  obtain ⟨p, unit, hstray, hunit⟩ := hnames _ hexpression
  have hplace : 7 = Text.collapsedPlace "\t(add \u00a01 -\n2)" p :=
    Int.ofNat.inj (Option.some.inj hunit.position?_eq)
  have hall : ∀ q < 13, 7 = Text.collapsedPlace "\t(add \u00a01 -\n2)" q → q = 9 := by
    decide +kernel
  obtain ⟨hlt, -⟩ := List.getElem?_eq_some_iff.mp hstray.isStray.getElem?_eq
  obtain rfl : p = 9 := hall p hlt hplace
  obtain rfl : CodeUnit.minus = unit := Option.some.inj hstray.isStray.getElem?_eq
  rw [← hplace] at hunit
  exact ⟨hiff.mp ⟨_, hexpression⟩, _, hexpression, hstray, hunit⟩

end Sprig.Format
