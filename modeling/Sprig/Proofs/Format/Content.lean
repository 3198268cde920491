import Mathlib.Data.List.ReduceOption
import Sprig.Proofs.Format.Preservation
import Sprig.Proofs.Format.Script
import Sprig.Proofs.Script.Lines

/-!
# The content of a script

A script says what its comments and its expressions say; its blank lines say nothing. Formatting
keeps that: the lines that are not blank stay in their order and of their kind, none is lost and
none is added, and an expression that has a value still has it.
-/

namespace Sprig

/-- The lines of a script that are not blank. -/
def Text.content (source : Text) : List Text := source.lines.filter fun t => t.lineKind ≠ .blank

/-- The expressions of a script are among its content. -/
lemma Text.filter_content (source : Text) :
    (source.content.filter fun t => t.lineKind = .expression) =
      source.lines.filter fun t => t.lineKind = .expression := by
  rw [content, List.filter_filter]
  refine List.filter_congr fun t _ => ?_
  cases t.lineKind <;> rfl

namespace Format

variable {rows : List (Option Text)} {source formatted t u : Text}

/-- What a line keeps that is not blank: it stays of its kind, a comment is only trimmed, and an
expression is laid out. -/
structure Keeps (t u : Text) : Prop where
  lineKind_eq : u.lineKind = t.lineKind
  comment : t.lineKind = .comment → u = t.trim
  expression : t.lineKind = .expression → expression t = .ok u

/-! ### Lines -/

/-- A line that formatting makes something of keeps what it says. -/
lemma keeps_of_line (h : line t = .ok (some u)) : Keeps t u := by
  rcases line_eq_some_iff.mp h with ⟨hkind, rfl⟩ | ⟨hkind, hexpression⟩
  · exact ⟨lineKind_trim t, fun _ => rfl, by simp [hkind]⟩
  · obtain ⟨ts, last, hlaid, -, rfl⟩ := exists_laid_of_lineKind hkind hexpression
    exact ⟨hlaid.lineKind_texts.trans hkind.symm, by simp [hkind], fun _ => hexpression⟩

/-! ### Scripts -/

/-- The rows of a script keep its content. -/
lemma forall₂_keeps (h : List.Forall₂ (fun t r => line t = .ok r) source.lines rows) :
    List.Forall₂ Keeps source.content rows.reduceOption := by
  rw [Text.content]
  generalize source.lines = ls at h
  induction h with
  | nil => exact .nil
  | @cons t r ls rows hline _ ih =>
    cases r with
    | none =>
      have hblank : t.lineKind = .blank := line_eq_none_iff.mp hline
      simpa [hblank] using ih
    | some u =>
      have hblank : t.lineKind ≠ .blank := by simp [← line_eq_none_iff, hline]
      rw [List.filter_cons_of_pos (by simpa using hblank), List.reduceOption_cons_of_some]
      exact .cons (keeps_of_line hline) ih

/-- The lines of a formatted script are blank ones and its rows. -/
lemma filter_stack {p : Text → Bool} (hp : p [] = false) (hrows : ∀ t, some t ∈ rows → p t)
    (kept : Nat → Nat) (blanks : Nat) : (stack kept blanks rows).filter p = rows.reduceOption := by
  induction rows generalizing blanks with
  | nil => rfl
  | cons r rows ih =>
    have ih := ih fun t ht => hrows t (List.mem_cons_of_mem _ ht)
    cases r with
    | none => exact ih (blanks + 1)
    | some t =>
      have ht : p t := hrows t (by simp)
      simp [stack, hp, ht, ih, List.reduceOption_cons_of_some]

lemma filter_arrange {p : Text → Bool} (hp : p [] = false) (hrows : ∀ t, some t ∈ rows → p t)
    (maxBlank : Binary64) : (arrange maxBlank rows).filter p = rows.reduceOption := by
  rw [arrange, filter_stack hp fun t ht => hrows t ((List.dropWhile_sublist _).subset ht)]
  induction rows with
  | nil => rfl
  | cons r rows ih =>
    cases r with
    | none => exact ih fun t ht => hrows t (List.mem_cons_of_mem _ ht)
    | some t => rfl

/-- The content of a formatted script are its rows. -/
lemma content_unlines_arrange
    (h : List.Forall₂ (fun t r => line t = .ok r) source.lines rows) (maxBlank : Binary64) :
    Text.content (Text.unlines (arrange maxBlank rows)) = rows.reduceOption := by
  have hblank : ∀ t, some t ∈ rows → t.lineKind ≠ .blank := by
    intro t ht
    rw [Ne, ← line_eq_none_iff, (isFormatted_of_mem_rows h ht).line_eq]
    simp
  rw [Text.content, lines_unlines_arrange h, List.filter_append,
    filter_arrange (by rfl) fun t ht => by simpa using hblank t ht]
  simp [Text.lineKind, Text.trim, Text.trimEnd]

/-- Formatting a script keeps its content. -/
lemma forall₂_keeps_of_script {maxBlank : Binary64} (h : script maxBlank source = .ok formatted) :
    List.Forall₂ Keeps source.content formatted.content := by
  obtain ⟨rows, hrows, rfl⟩ := (script_eq_ok_iff maxBlank).mp h
  rw [content_unlines_arrange hrows]
  exact forall₂_keeps hrows

/-- The expressions of a formatted script are those of the script, laid out. -/
lemma forall₂_expressions (h : List.Forall₂ Keeps source.content formatted.content) :
    List.Forall₂ (fun l l' : ScriptLine => expression l.text = .ok l'.text)
      (ScriptLine.expressions source) (ScriptLine.expressions formatted) := by
  have hfilter := List.rel_filter
    (p := fun t : Text => t.lineKind = .expression) (q := fun t : Text => t.lineKind = .expression)
    (fun t u (hkeeps : Keeps t u) => by simp [hkeeps.lineKind_eq]) h
  rw [Text.filter_content, Text.filter_content] at hfilter
  have hexpressions := (List.forall₂_and_left _ _).mpr
    ⟨fun t ht => of_decide_eq_true (List.mem_filter.mp ht).2, hfilter⟩
  rw [← ScriptLine.map_text_expressions, ← ScriptLine.map_text_expressions,
    List.forall₂_map_left_iff, List.forall₂_map_right_iff] at hexpressions
  exact hexpressions.imp fun l l' ⟨hkind, hkeeps⟩ => hkeeps.expression hkind

/-- Formatting a script keeps its program. The expressions of the formatted script are those of the
script, each laid out; comments are trimmed and keep their places among the expressions; and every
expression that has a value has the same value after it. -/
theorem script_keeps_program (maxBlank : Binary64) (h : script maxBlank source = .ok formatted) :
    ((ScriptLine.expressions source).map ScriptLine.text).mapM expression =
      .ok ((ScriptLine.expressions formatted).map ScriptLine.text) ∧
    List.Forall₂ Keeps source.content formatted.content ∧
    ∀ limit, List.Forall₂ (fun before after => ∀ value, before.2 = .ok value → after.2 = .ok value)
      (evaluateLines limit source) (evaluateLines limit formatted) := by
  have hkeeps := forall₂_keeps_of_script h
  have hexpressions := forall₂_expressions hkeeps
  refine ⟨?_, hkeeps, ?_⟩
  · rw [mapM_eq_ok_iff, List.forall₂_map_left_iff, List.forall₂_map_right_iff]
    exact hexpressions
  · intro limit
    rw [evaluateLines, evaluateLines, List.forall₂_map_left_iff, List.forall₂_map_right_iff]
    refine hexpressions.imp fun l l' hformat value hvalue => ?_
    obtain ⟨w, hw, hvalue'⟩ := exists_formatted_of_evaluate hvalue
    obtain rfl : w = l'.text := Except.ok.inj (hw.symm.trans hformat)
    exact hvalue'

/-- A comment before two sums, of which only the first has a value before it is laid out. -/
theorem script_keeps_program_sums :
    script (.finite 1) " ; sums \n\n\n (add 1 2)\r\n( add 3  4)" =
      .ok "; sums\n\n(add 1 2)\n(add 3 4)\n" ∧
    List.mapM expression [" (add 1 2)", "( add 3  4)"] = .ok ["(add 1 2)", "(add 3 4)"] ∧
    List.Forall₂ Keeps [" ; sums ", " (add 1 2)", "( add 3  4)"]
      ["; sums", "(add 1 2)", "(add 3 4)"] ∧
    List.Forall₂ (fun before after => ∀ value, before.2 = .ok value → after.2 = .ok value)
      (evaluateLines 2 " ; sums \n\n\n (add 1 2)\r\n( add 3  4)")
      (evaluateLines 2 "; sums\n\n(add 1 2)\n(add 3 4)\n") := by
  have hformat : script (.finite 1) " ; sums \n\n\n (add 1 2)\r\n( add 3  4)" =
      .ok "; sums\n\n(add 1 2)\n(add 3 4)\n" := by
    decide +kernel
  obtain ⟨hexpressions, hkeeps, hvalues⟩ := script_keeps_program _ hformat
  exact ⟨hformat, hexpressions, hkeeps, hvalues 2⟩

end Format

end Sprig
