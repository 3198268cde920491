import Sprig.Proofs.Format.Content

/-!
# The gaps of a script

A formatted script is laid out from its lines alone, gap by gap: the lines that are not blank follow
each other in their order, each one as formatting makes it, and of the blank lines between two
neighbouring ones as many are left as the maximum allows. Nothing is left of those before the
first and after the last.
-/

namespace Sprig.Format

variable {m : Nat} {source formatted t u : Text} {gap ls out : List Text}
  {rows : List (Option Text)}

/-- Lines that are all blank. -/
def IsGap (gap : List Text) : Prop := ∀ t ∈ gap, t.lineKind = .blank

/-- The lines that `out` goes on with where the lines of a script go on with `ls`, after one that is
not blank. Of a gap before another such line at most `m` lines are left. -/
inductive GoesOn (m : Nat) : (ls out : List Text) → Prop
  | done {gap : List Text} (hgap : IsGap gap) : GoesOn m gap []
  | next {gap ls out : List Text} {t u : Text} (hgap : IsGap gap) (ht : t.lineKind ≠ .blank)
      (hkeeps : Keeps t u) (hrest : GoesOn m ls out) :
      GoesOn m (gap ++ t :: ls) (List.replicate (min gap.length m) [] ++ u :: out)

/-- The lines of a script are laid out as `out`: nothing is left of the gap before the first one
that is not blank. -/
inductive IsLaidOut (m : Nat) : (ls out : List Text) → Prop
  | empty {gap : List Text} (hgap : IsGap gap) : IsLaidOut m gap []
  | first {gap ls out : List Text} {t u : Text} (hgap : IsGap gap) (ht : t.lineKind ≠ .blank)
      (hkeeps : Keeps t u) (hrest : GoesOn m ls out) : IsLaidOut m (gap ++ t :: ls) (u :: out)

lemma isGap_nil : IsGap [] := by simp [IsGap]

lemma IsGap.concat (hgap : IsGap gap) (ht : t.lineKind = .blank) : IsGap (gap ++ [t]) := by
  intro t' ht'
  rcases List.mem_append.mp ht' with hmem | hmem
  · exact hgap t' hmem
  · rwa [List.mem_singleton.mp hmem]

/-! ### Lines -/

/-- A line that is not blank becomes what keeps it. -/
lemma line_eq_some_iff_keeps : line t = .ok (some u) ↔ t.lineKind ≠ .blank ∧ Keeps t u := by
  constructor
  · intro h
    refine ⟨?_, keeps_of_line h⟩
    simp [← line_eq_none_iff, h]
  · rintro ⟨hblank, hkeeps⟩
    apply line_eq_some_iff.mpr
    cases hkind : t.lineKind with
    | blank => exact absurd hkind hblank
    | comment => exact Or.inl ⟨rfl, (hkeeps.comment hkind).symm⟩
    | expression => exact Or.inr ⟨rfl, hkeeps.expression hkind⟩

/-- The rows of a gap are empty. -/
lemma IsGap.forall₂_line (hgap : IsGap gap) :
    List.Forall₂ (fun t r => line t = .ok r) gap (List.replicate gap.length none) := by
  induction gap with
  | nil => exact .nil
  | cons t gap ih =>
    obtain ⟨ht, hgap⟩ := List.forall_mem_cons.mp hgap
    exact .cons (line_eq_none_iff.mpr ht) (ih hgap)

/-! ### Rows -/

lemma arrange_replicate_append (maxBlank : Binary64) (n : Nat) (rows : List (Option Text)) :
    arrange maxBlank (List.replicate n none ++ rows) = arrange maxBlank rows := by
  induction n with
  | zero => rfl
  | succ n ih => exact ih

lemma arrange_some (maxBlank : Binary64) (u : Text) (rows : List (Option Text)) :
    arrange maxBlank (some u :: rows) =
      u :: stack (fun blanks => maxBlank.countBelow blanks) 0 rows := by
  simp [arrange, stack]

/-- What is put below a line that is not blank. The gap that has been passed over is pending. -/
lemma goesOn_stack (h : List.Forall₂ (fun t r => line t = .ok r) ls rows) (hgap : IsGap gap) :
    GoesOn m (gap ++ ls)
      (stack (fun blanks => (Binary64.finite m).countBelow blanks) gap.length rows) := by
  induction h generalizing gap with
  | nil =>
    rw [List.append_nil]
    exact .done hgap
  | @cons t r ls rows hline _ ih =>
    cases r with
    | none =>
      have hrest := ih (hgap.concat (line_eq_none_iff.mp hline))
      rwa [List.append_assoc, List.singleton_append, List.length_append] at hrest
    | some u =>
      obtain ⟨ht, hkeeps⟩ := line_eq_some_iff_keeps.mp hline
      rw [stack, Binary64.countBelow_natCast]
      exact .next hgap ht hkeeps (ih isGap_nil)

/-- The rows of a script are arranged as its lines are laid out. -/
lemma isLaidOut_arrange (h : List.Forall₂ (fun t r => line t = .ok r) ls rows)
    (hgap : IsGap gap) : IsLaidOut m (gap ++ ls) (arrange (.finite m) rows) := by
  induction h generalizing gap with
  | nil =>
    rw [List.append_nil]
    exact .empty hgap
  | @cons t r ls rows hline hlines ih =>
    cases r with
    | none =>
      have hrest := ih (hgap.concat (line_eq_none_iff.mp hline))
      rwa [List.append_assoc, List.singleton_append] at hrest
    | some u =>
      obtain ⟨ht, hkeeps⟩ := line_eq_some_iff_keeps.mp hline
      rw [arrange_some]
      exact .first hgap ht hkeeps (goesOn_stack hlines isGap_nil)

/-- The lines that are laid out are rows put below each other. -/
lemma GoesOn.exists_rows (h : GoesOn m ls out) :
    ∃ rows, List.Forall₂ (fun t r => line t = .ok r) ls rows ∧
      out = stack (fun blanks => (Binary64.finite m).countBelow blanks) 0 rows := by
  induction h with
  | @done gap hgap =>
    refine ⟨List.replicate gap.length none, hgap.forall₂_line, ?_⟩
    rw [← List.append_nil (List.replicate gap.length none), stack_replicate_append, stack]
  | @next gap ls out t u hgap ht hkeeps _ ih =>
    obtain ⟨rows, hrows, rfl⟩ := ih
    have hline : line t = .ok (some u) := line_eq_some_iff_keeps.mpr ⟨ht, hkeeps⟩
    refine ⟨List.replicate gap.length none ++ some u :: rows,
      List.rel_append hgap.forall₂_line (.cons hline hrows), ?_⟩
    rw [stack_replicate_append, stack, Binary64.countBelow_natCast, Nat.zero_add]

lemma IsLaidOut.exists_rows (h : IsLaidOut m ls out) :
    ∃ rows, List.Forall₂ (fun t r => line t = .ok r) ls rows ∧
      out = arrange (.finite m) rows := by
  cases h with
  | empty hgap =>
    refine ⟨List.replicate ls.length none, hgap.forall₂_line, ?_⟩
    rw [← List.append_nil (List.replicate ls.length none), arrange_replicate_append]
    rfl
  | @first gap ls out t u hgap ht hkeeps hrest =>
    obtain ⟨rows, hrows, rfl⟩ := hrest.exists_rows
    have hline : line t = .ok (some u) := line_eq_some_iff_keeps.mpr ⟨ht, hkeeps⟩
    refine ⟨List.replicate gap.length none ++ some u :: rows,
      List.rel_append hgap.forall₂_line (.cons hline hrows), ?_⟩
    rw [arrange_replicate_append, arrange_some]

/-! ### Scripts -/

/-- What a script is formatted to are the lines that are laid out from its own. -/
lemma script_eq_ok_iff_isLaidOut : script (.finite m) source = .ok formatted ↔
    ∃ out, IsLaidOut m source.lines out ∧ formatted = Text.unlines out := by
  rw [script_eq_ok_iff]
  constructor
  · rintro ⟨rows, hrows, rfl⟩
    exact ⟨_, isLaidOut_arrange hrows isGap_nil, rfl⟩
  · rintro ⟨out, hout, rfl⟩
    obtain ⟨rows, hrows, rfl⟩ := hout.exists_rows
    exact ⟨rows, hrows, rfl⟩

/-- The layout of a script. A script is formatted to the lines that are laid out from its own, each
ended by a line feed; each line of it that is not blank becomes one that has a unit and no line
feed; and nothing is left of a script of blank lines. -/
theorem script_layout (m : Nat) (source : Text) :
    (∀ formatted, script (.finite m) source = .ok formatted ↔
      ∃ out, IsLaidOut m source.lines out ∧ formatted = Text.unlines out) ∧
    (∀ t ∈ source.lines, ∀ u, t.lineKind ≠ .blank → Keeps t u →
      u ≠ [] ∧ CodeUnit.lineFeed ∉ u) ∧
    (IsGap source.lines → script (.finite m) source = .ok []) := by
  refine ⟨fun formatted => script_eq_ok_iff_isLaidOut, ?_, fun hgap => ?_⟩
  · intro t ht u hblank hkeeps
    have hline : line t = .ok (some u) := line_eq_some_iff_keeps.mpr ⟨hblank, hkeeps⟩
    have hformatted := isFormatted_of_line hline (Text.notMem_of_mem_lines ht)
    exact ⟨hformatted.isTrimmed.ne_nil, hformatted.notMem_lineFeed⟩
  · exact script_eq_ok_iff_isLaidOut.mpr ⟨[], .empty hgap, rfl⟩

/-- One of two blank lines is left, and none at the start and at the end. -/
theorem script_layout_sums :
    script (.finite (1 : Nat)) "\n ; sums \n\n\t\n( add 1  2)\r\n\n" =
      .ok "; sums\n\n(add 1 2)\n" ∧
    (∃ out, IsLaidOut 1 (Text.lines "\n ; sums \n\n\t\n( add 1  2)\r\n\n") out ∧
      "; sums\n\n(add 1 2)\n" = Text.unlines out) ∧
    IsGap (Text.lines "\n\t") ∧ script (.finite (1 : Nat)) "\n\t" = .ok [] := by
  have hformat : script (.finite (1 : Nat)) "\n ; sums \n\n\t\n( add 1  2)\r\n\n" =
      .ok "; sums\n\n(add 1 2)\n" := by
    decide +kernel
  have hgap : IsGap (Text.lines "\n\t") := by
    intro t ht
    have h : ∀ t ∈ Text.lines "\n\t", t.lineKind = .blank := by decide
    exact h t ht
  exact ⟨hformat, ((script_layout 1 _).1 _).mp hformat, hgap, (script_layout 1 _).2.2 hgap⟩

end Sprig.Format
