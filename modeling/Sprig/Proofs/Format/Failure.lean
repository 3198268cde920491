import Sprig.Proofs.Format.Preservation
import Sprig.Proofs.Format.Script
import Sprig.Proofs.Script.Lines

/-!
# Scripts that cannot be formatted

Formatting a script fails at the first expression that cannot be laid out, and says which one it is
and why. Such an expression has no value either, so a script all of whose expressions have values is
always formatted.
-/

namespace Sprig

/-- The first expression of a script that cannot be laid out, and what is wrong with it. -/
structure ScriptLine.IsFirstUnformattable (source : Text) (l : ScriptLine) (c : SyntaxError) :
    Prop where
  mem : l ∈ expressions source
  expression_eq : Format.expression l.text = .error c
  first : ∀ l' ∈ expressions source, l'.number < l.number →
    ∃ u, Format.expression l'.text = .ok u

namespace Format

variable {limit : Nat} {source t : Text} {l : ScriptLine} {c : SyntaxError} {e : Error}

/-! ### Lines -/

lemma line_eq_error_iff :
    line t = .error c ↔ t.lineKind = .expression ∧ expression t = .error c := by
  cases hkind : t.lineKind with
  | blank => simp [line, hkind]
  | comment => simp [line, hkind]
  | expression => cases hexpression : expression t <;> simp [line, hkind, hexpression, Except.map]

/-- A line can be laid out unless it is an expression that cannot. -/
lemma exists_line_eq_ok_iff :
    (∃ r, line t = .ok r) ↔ (t.lineKind = .expression → ∃ u, expression t = .ok u) := by
  cases hkind : t.lineKind with
  | blank => simp [line, hkind]
  | comment => simp [line, hkind]
  | expression => cases hexpression : expression t <;> simp [line, hkind, hexpression, Except.map]

/-! ### Scripts -/

/-- A script fails to be formatted at a line after lines that can be laid out. -/
lemma exists_split_of_script {maxBlank : Binary64} (h : script maxBlank source = .error e) :
    ∃ before l after c, ScriptLine.all source = before ++ l :: after ∧
      (∀ l' ∈ before, ∃ r, line l'.text = .ok r) ∧ line l.text = .error c ∧
      e = .unformattable l.number (.malformed c) := by
  have hrows : ((ScriptLine.all source).mapM fun l => (line l.text).mapError fun c =>
      Error.unformattable l.number (.malformed c)) = .error e := by
    rw [script] at h
    cases hmap : (ScriptLine.all source).mapM fun l => (line l.text).mapError fun c =>
        Error.unformattable l.number (.malformed c) with
    | error e' => simpa [hmap, bind, Except.bind] using h
    | ok rows => simp [hmap, bind, Except.bind, pure, Except.pure] at h
  obtain ⟨before, l, after, hsplit, hbefore, hfail⟩ := exists_of_mapM_eq_error hrows
  obtain ⟨c, hline, rfl⟩ := mapError_eq_error_iff.mp hfail
  refine ⟨before, l, after, c, hsplit, fun l' hl' => ?_, hline, rfl⟩
  obtain ⟨r, hr⟩ := hbefore l' hl'
  exact ⟨r, mapError_eq_ok_iff.mp hr⟩

/-- Lines with a smaller number come before. -/
lemma mem_before_of_number_lt {before after : List ScriptLine} {l' : ScriptLine}
    (hsplit : ScriptLine.all source = before ++ l :: after) (hmem : l' ∈ ScriptLine.all source)
    (hnumber : l'.number < l.number) : l' ∈ before := by
  have hpairwise := ScriptLine.pairwise_number_all source
  rw [hsplit] at hpairwise hmem
  have hafter := (List.pairwise_cons.mp (List.pairwise_append.mp hpairwise).2.1).1
  rcases List.mem_append.mp hmem with hbefore | hmem
  · exact hbefore
  · rcases List.mem_cons.mp hmem with rfl | hmem
    · exact absurd hnumber (lt_irrefl _)
    · exact absurd hnumber (hafter l' hmem).not_gt

/-- The line that a script fails to be formatted at is the first of its kind. -/
lemma exists_isFirstUnformattable {maxBlank : Binary64} (h : script maxBlank source = .error e) :
    ∃ (l : ScriptLine) (c : SyntaxError), l.IsFirstUnformattable source c ∧
      e = .unformattable l.number (.malformed c) := by
  obtain ⟨before, l, after, c, hsplit, hbefore, hline, rfl⟩ := exists_split_of_script h
  obtain ⟨hkind, hexpression⟩ := line_eq_error_iff.mp hline
  refine ⟨l, c, ⟨?_, hexpression, fun l' hl' hnumber => ?_⟩, rfl⟩
  · rw [ScriptLine.expressions, List.mem_filter, hsplit]
    exact ⟨by simp, decide_eq_true hkind⟩
  · rw [ScriptLine.expressions, List.mem_filter, decide_eq_true_eq] at hl'
    have hmem := mem_before_of_number_lt hsplit hl'.1 hnumber
    exact exists_line_eq_ok_iff.mp (hbefore l' hmem) hl'.2

/-- An expression that cannot be laid out has no value. -/
lemma exists_evaluate_eq_error (limit : Nat) (h : expression t = .error c) :
    ∃ e, evaluate limit t = .error e := by
  cases hvalue : evaluate limit t with
  | error e => exact ⟨e, rfl⟩
  | ok value =>
    obtain ⟨formatted, hformat, -⟩ := exists_formatted_of_evaluate hvalue
    rw [h] at hformat
    cases hformat

lemma exists_mem_evaluateLines (limit : Nat) (hmem : l ∈ ScriptLine.expressions source)
    (h : expression l.text = .error c) : ∃ e, (l, .error e) ∈ evaluateLines limit source := by
  obtain ⟨e, he⟩ := exists_evaluate_eq_error limit h
  exact ⟨e, List.mem_map.mpr ⟨l, hmem, by rw [he]⟩⟩

/-- A script with an expression that cannot be laid out is not formatted. -/
lemma exists_script_eq_error (maxBlank : Binary64) (hmem : l ∈ ScriptLine.expressions source)
    (h : expression l.text = .error c) : ∃ e, script maxBlank source = .error e := by
  cases hscript : script maxBlank source with
  | error e => exact ⟨e, rfl⟩
  | ok formatted =>
    obtain ⟨rows, hrows, -⟩ := (script_eq_ok_iff maxBlank).mp hscript
    obtain ⟨hmem, hkind⟩ := List.mem_filter.mp hmem
    have hline : line l.text = .error c := line_eq_error_iff.mpr ⟨of_decide_eq_true hkind, h⟩
    have htext : l.text ∈ source.lines := by
      rw [← ScriptLine.map_text_all]
      exact List.mem_map_of_mem hmem
    obtain ⟨r, hr⟩ := exists_row_of_mem_lines hrows htext
    rw [hline] at hr
    cases hr

/-- Formatting a script fails if and only if some expression of it cannot be laid out. It fails with
the number of the first one and with what is wrong with it, and evaluating the script fails at that
expression, whatever the limit. So a script is formatted if all its expressions have values. -/
theorem script_fails (maxBlank : Binary64) (source : Text) :
    ((∃ e, script maxBlank source = .error e) ↔
      ∃ l ∈ ScriptLine.expressions source, ∃ c, expression l.text = .error c) ∧
    (∀ e, script maxBlank source = .error e →
      ∃ (l : ScriptLine) (c : SyntaxError), l.IsFirstUnformattable source c ∧
        e = .unformattable l.number (.malformed c) ∧
        ∀ limit, ∃ e', (l, .error e') ∈ evaluateLines limit source) ∧
    ∀ limit, (∀ o ∈ evaluateLines limit source, ∃ value, o.2 = .ok value) →
      ∃ formatted, script maxBlank source = .ok formatted := by
  refine ⟨⟨?_, ?_⟩, ?_, ?_⟩
  · rintro ⟨e, h⟩
    obtain ⟨l, c, hfirst, -⟩ := exists_isFirstUnformattable h
    exact ⟨l, hfirst.mem, c, hfirst.expression_eq⟩
  · rintro ⟨l, hmem, c, h⟩
    exact exists_script_eq_error maxBlank hmem h
  · intro e h
    obtain ⟨l, c, hfirst, rfl⟩ := exists_isFirstUnformattable h
    exact ⟨l, c, hfirst, rfl, fun limit =>
      exists_mem_evaluateLines limit hfirst.mem hfirst.expression_eq⟩
  · intro limit hvalues
    cases hscript : script maxBlank source with
    | ok formatted => exact ⟨formatted, rfl⟩
    | error e =>
      obtain ⟨l, c, hfirst, -⟩ := exists_isFirstUnformattable hscript
      obtain ⟨e', hmem⟩ := exists_mem_evaluateLines limit hfirst.mem hfirst.expression_eq
      obtain ⟨value, hvalue⟩ := hvalues _ hmem
      cases hvalue

/-- Two expressions cannot be laid out, and the number of the first one is reported. -/
theorem script_fails_stray :
    script (.finite 1) "1\n; $\r\n( add  2 $)\n$" =
      .error (.unformattable 3 (.malformed (.unexpectedUnit 0x24 8))) ∧
    ∃ (l : ScriptLine) (c : SyntaxError),
      l.IsFirstUnformattable "1\n; $\r\n( add  2 $)\n$" c ∧ l.number = 3 ∧
      ∀ limit, ∃ e, (l, .error e) ∈ evaluateLines limit "1\n; $\r\n( add  2 $)\n$" := by
  have hfail : script (.finite 1) "1\n; $\r\n( add  2 $)\n$" =
      .error (.unformattable 3 (.malformed (.unexpectedUnit 0x24 8))) := by
    decide +kernel
  refine ⟨hfail, ?_⟩
  obtain ⟨l, c, hfirst, he, hevaluate⟩ := (script_fails (.finite 1) _).2.1 _ hfail
  have hnumber : (3 : Int) = l.number := (Error.unformattable.inj he).1
  exact ⟨l, c, hfirst, by omega, hevaluate⟩

end Format

end Sprig
