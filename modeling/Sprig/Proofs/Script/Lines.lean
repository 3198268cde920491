import Mathlib.Data.List.Forall2
import Sprig.Format.Basic

/-!
# The lines of a script

A script is known by its lines: their numbers count from one, and the expressions are the lines that
are neither blank nor comments, in the order of their numbers. Texts with the same lines are the
same script.
-/

namespace Sprig

lemma Text.lineKind_eq_expression_iff {t : Text} : t.lineKind = .expression ↔
    t.trim ≠ [] ∧ t.trimStart.head? ≠ some CodeUnit.semicolon := by
  simp only [lineKind, isComment, decide_eq_true_eq]
  split_ifs with hblank hcomment
  · simp [hblank]
  · simp [hcomment]
  · simp [hblank, hcomment]

namespace ScriptLine

variable {source source' : Text} {l : ScriptLine}

lemma mem_all_iff : l ∈ all source ↔ 1 ≤ l.number ∧ source.lines[l.number - 1]? = some l.text := by
  rw [← List.mk_mem_zipIdx_iff_le_and_getElem?_sub, all, List.mem_map]
  constructor
  · rintro ⟨⟨t, n⟩, hmem, rfl⟩
    exact hmem
  · intro hmem
    exact ⟨_, hmem, rfl⟩

/-- The expressions of a script are the lines of it that are neither blank nor comments, with their
numbers in it. -/
lemma mem_expressions_iff : l ∈ expressions source ↔
    1 ≤ l.number ∧ source.lines[l.number - 1]? = some l.text ∧ l.text.lineKind = .expression := by
  rw [expressions, List.mem_filter, mem_all_iff, decide_eq_true_eq, and_assoc]

lemma pairwise_number_all (source : Text) :
    (all source).Pairwise fun l l' => l.number < l'.number := by
  have hnumbers : (all source).map number = List.range' 1 source.lines.length := by
    rw [all, List.map_map]
    exact List.zipIdx_map_snd 1 source.lines
  rw [← List.pairwise_map (f := number), hnumbers]
  exact List.pairwise_lt_range'

lemma pairwise_number_expressions (source : Text) :
    (expressions source).Pairwise fun l l' => l.number < l'.number :=
  (pairwise_number_all source).filter _

lemma map_text_expressions (source : Text) :
    (expressions source).map text =
      source.lines.filter fun t => t.lineKind = .expression := by
  rw [expressions, ← map_text_all, List.filter_map]
  rfl

/-! ### Texts with the same lines -/

lemma all_congr (h : source'.lines = source.lines) : all source' = all source := by
  rw [all, h, all]

lemma expressions_congr (h : source'.lines = source.lines) :
    expressions source' = expressions source := by
  rw [expressions, all_congr h, expressions]

end ScriptLine

variable {source source' : Text}

lemma evaluateLines_congr (limit : Nat) (h : source'.lines = source.lines) :
    evaluateLines limit source' = evaluateLines limit source := by
  rw [evaluateLines, ScriptLine.expressions_congr h, evaluateLines]

lemma Format.script_congr (maxBlank : Binary64) (h : source'.lines = source.lines) :
    script maxBlank source' = script maxBlank source := by
  rw [script, ScriptLine.all_congr h, script]

end Sprig
