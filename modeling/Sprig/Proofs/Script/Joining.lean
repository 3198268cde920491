import Sprig.Proofs.Script.Lines
import Sprig.Proofs.Text.Lines

/-!
# Scripts made of lines

A script can be written down line by line, with a line feed or a carriage return and a line feed
between neighbouring lines. Its expressions and their outcomes are read off the lines alone, and
so is what it is formatted to: how the lines end is not seen.
-/

namespace Sprig

variable {ls : List Text} {source source' : Text}

namespace Text

/-- What goes between two lines: a line feed, or a carriage return and a line feed. -/
def IsLineEnd (t : Text) : Prop :=
  t = [CodeUnit.lineFeed] ∨ t = [CodeUnit.carriageReturn, CodeUnit.lineFeed]

/-- A text is joined of lines if there is some line end between any two neighbouring ones. The
line ends need not be the same. -/
inductive IsJoined : List Text → Text → Prop
  | nil : IsJoined [] []
  | single (t : Text) : IsJoined [t] t
  | cons (t : Text) {next source lineEnd : Text} {ls : List Text} (hend : IsLineEnd lineEnd)
      (hrest : IsJoined (next :: ls) source) :
      IsJoined (t :: next :: ls) (t ++ lineEnd ++ source)

/-- A line comes before the lines of the text after its end, however it ends. -/
lemma lines_append_lineEnd {t lineEnd : Text} (ht : IsLine t) (hend : IsLineEnd lineEnd)
    (source : Text) : lines (t ++ lineEnd ++ source) = t :: lines source := by
  rw [List.append_assoc]
  rcases hend with rfl | rfl
  · exact lines_append_cons ht source
  · exact lines_append_return_cons ht.notMem_lineFeed source

/-- The lines are read off the text that is joined of them. -/
theorem IsJoined.lines_eq (hlines : ∀ t ∈ ls, IsLine t) (hne : ls ≠ [])
    (h : IsJoined ls source) : source.lines = ls := by
  induction h with
  | nil => exact absurd rfl hne
  | single t => exact lines_of_notMem (hlines t (by simp)).notMem_lineFeed
  | cons t hend _ ih =>
    obtain ⟨ht, hrest⟩ := List.forall_mem_cons.mp hlines
    rw [lines_append_lineEnd ht hend, ih hrest (by simp)]

/-- Two texts that are joined of the same lines have the same lines. -/
lemma IsJoined.lines_congr (hlines : ∀ t ∈ ls, IsLine t) (h : IsJoined ls source)
    (h' : IsJoined ls source') : source'.lines = source.lines := by
  cases ls with
  | nil =>
    cases h
    cases h'
    rfl
  | cons t ls =>
    rw [h.lines_eq hlines (by simp), h'.lines_eq hlines (by simp)]

end Text

/-- The expressions of a script that is joined of lines are those of the lines that are neither
blank nor comments, with their places among the lines. -/
lemma ScriptLine.mem_expressions_iff_of_isJoined (hlines : ∀ t ∈ ls, t.IsLine)
    (h : Text.IsJoined ls source) {l : ScriptLine} : l ∈ expressions source ↔
      1 ≤ l.number ∧ ls[l.number - 1]? = some l.text ∧ l.text.trim ≠ [] ∧
        l.text.trimStart.head? ≠ some CodeUnit.semicolon := by
  cases ls with
  | nil =>
    -- the text of no lines has one, which is blank
    cases h
    have hnil : expressions [] = [] := rfl
    simp [hnil]
  | cons t ls =>
    rw [mem_expressions_iff, h.lines_eq hlines (by simp), Text.lineKind_eq_expression_iff]

/-- A script is its lines: the expressions are the lines that are neither blank nor comments, each
with its place among the lines, in this order; every outcome is that of its line alone; and with
other line ends the expressions, the outcomes and the formatted script, or the failure to format
it, are the same. -/
theorem expressions_of_isJoined (hlines : ∀ t ∈ ls, t.IsLine) (h : Text.IsJoined ls source) :
    (∀ l, l ∈ ScriptLine.expressions source ↔
      1 ≤ l.number ∧ ls[l.number - 1]? = some l.text ∧ l.text.trim ≠ [] ∧
        l.text.trimStart.head? ≠ some CodeUnit.semicolon) ∧
    (ScriptLine.expressions source).Pairwise (fun l l' => l.number < l'.number) ∧
    (∀ limit, List.Forall₂ (fun l o => o = (l, evaluate limit l.text))
      (ScriptLine.expressions source) (evaluateLines limit source)) ∧
    ∀ source', Text.IsJoined ls source' →
      ScriptLine.expressions source' = ScriptLine.expressions source ∧
      (∀ limit, evaluateLines limit source' = evaluateLines limit source) ∧
      ∀ maxBlank, Format.script maxBlank source' = Format.script maxBlank source := by
  refine ⟨fun l => ScriptLine.mem_expressions_iff_of_isJoined hlines h,
    ScriptLine.pairwise_number_expressions source, fun limit => ?_, fun source' h' => ?_⟩
  · rw [evaluateLines, List.forall₂_map_right_iff, List.forall₂_same]
    intro l _
    rfl
  · have hsame := Text.IsJoined.lines_congr hlines h h'
    exact ⟨ScriptLine.expressions_congr hsame, fun limit => evaluateLines_congr limit hsame,
      fun maxBlank => Format.script_congr maxBlank hsame⟩

/-- A carriage return within a line stays, and an expression that cannot be formatted is on the
fourth line with either choice of line ends. -/
theorem expressions_of_isJoined_carriageReturn :
    Text.IsJoined ["1", "", "; a\rb", "(add 2 $)"] "1\r\n\n; a\rb\r\n(add 2 $)" ∧
    Text.IsJoined ["1", "", "; a\rb", "(add 2 $)"] "1\n\r\n; a\rb\n(add 2 $)" ∧
    ⟨4, "(add 2 $)"⟩ ∈ ScriptLine.expressions "1\r\n\n; a\rb\r\n(add 2 $)" ∧
    Format.script (.finite 1) "1\n\r\n; a\rb\n(add 2 $)" =
      Format.script (.finite 1) "1\r\n\n; a\rb\r\n(add 2 $)" := by
  have hlines : ∀ t ∈ (["1", "", "; a\rb", "(add 2 $)"] : List Text), t.IsLine := by
    have h : ∀ t ∈ (["1", "", "; a\rb", "(add 2 $)"] : List Text),
        CodeUnit.lineFeed ∉ t ∧ t.getLast? ≠ some CodeUnit.carriageReturn := by
      decide
    exact fun t ht => ⟨(h t ht).1, (h t ht).2⟩
  have hjoined : Text.IsJoined ["1", "", "; a\rb", "(add 2 $)"]
      "1\r\n\n; a\rb\r\n(add 2 $)" := by
    convert Text.IsJoined.cons "1" (.inr rfl) (.cons "" (.inl rfl)
      (.cons "; a\rb" (.inr rfl) (.single "(add 2 $)"))) using 1
    decide
  have hjoined' : Text.IsJoined ["1", "", "; a\rb", "(add 2 $)"]
      "1\n\r\n; a\rb\n(add 2 $)" := by
    convert Text.IsJoined.cons "1" (.inl rfl) (.cons "" (.inr rfl)
      (.cons "; a\rb" (.inl rfl) (.single "(add 2 $)"))) using 1
    decide
  obtain ⟨hexpressions, -, -, hsame⟩ := expressions_of_isJoined hlines hjoined
  exact ⟨hjoined, hjoined', (hexpressions ⟨4, "(add 2 $)"⟩).mpr (by decide),
    (hsame _ hjoined').2.2 _⟩

end Sprig
