import Mathlib.Data.List.Forall2
import Sprig.Proofs.Format.Canonical

/-!
# Formatted scripts

A script is formatted if all its lines are, and its text is that of their rows, with the runs of
blank lines cut. The lines of a formatted script are its rows again, apart from a blank one after
the last line end, and a run of blank lines that has been cut is not cut any more: formatting once
is enough.
-/

namespace Sprig.Format

variable {kept : Nat → Nat} {rows : List (Option Text)} {source formatted : Text}

/-! ### Rows below each other -/

/-- A line of a text that is laid out, none for one without units. -/
def row (t : Text) : Option Text := if t.isEmpty then none else some t

lemma row_nil : row [] = none := rfl

lemma row_of_ne_nil {t : Text} (h : t ≠ []) : row t = some t := by simp [row, h]

lemma stack_replicate_append (kept : Nat → Nat) (n blanks : Nat) (rows : List (Option Text)) :
    stack kept blanks (List.replicate n none ++ rows) = stack kept (blanks + n) rows := by
  induction n generalizing blanks with
  | zero => rfl
  | succ n ih =>
    rw [List.replicate_succ, List.cons_append, stack, ih]
    congr 1
    omega

/-- A blank line at the end is not kept. -/
lemma stack_append_none (kept : Nat → Nat) (blanks : Nat) (rows : List (Option Text)) :
    stack kept blanks (rows ++ [none]) = stack kept blanks rows := by
  induction rows generalizing blanks with
  | nil => rfl
  | cons r rows ih =>
    cases r with
    | none => exact ih (blanks + 1)
    | some t => rw [List.cons_append, stack, stack, ih]

lemma mem_stack {blanks : Nat} {t : Text} (h : t ∈ stack kept blanks rows) :
    t = [] ∨ some t ∈ rows := by
  induction rows generalizing blanks with
  | nil => cases h
  | cons r rows ih =>
    cases r with
    | none =>
      rcases ih h with rfl | hmem
      · exact Or.inl rfl
      · exact Or.inr (List.mem_cons_of_mem _ hmem)
    | some u =>
      rw [stack, List.mem_append, List.mem_cons] at h
      rcases h with h | rfl | h
      · exact Or.inl (List.eq_of_mem_replicate h)
      · exact Or.inr (by simp)
      · rcases ih h with rfl | hmem
        · exact Or.inl rfl
        · exact Or.inr (List.mem_cons_of_mem _ hmem)

/-- Runs of blank lines that have been cut are not cut again. -/
theorem stack_stack (hkept : ∀ n, kept (kept n) = kept n) (hrows : ∀ t, some t ∈ rows → t ≠ [])
    (blanks : Nat) : stack kept 0 ((stack kept blanks rows).map row) = stack kept blanks rows := by
  induction rows generalizing blanks with
  | nil => rfl
  | cons r rows ih =>
    have ih := ih fun t ht => hrows t (List.mem_cons_of_mem _ ht)
    cases r with
    | none => exact ih (blanks + 1)
    | some t =>
      have ht : row t = some t := row_of_ne_nil (hrows t (by simp))
      rw [stack, List.map_append, List.map_replicate, row_nil, List.map_cons, ht,
        stack_replicate_append, stack, ih, Nat.zero_add, hkept]

/-- The lines of a formatted script. -/
def arrange (maxBlank : Binary64) (rows : List (Option Text)) : List Text :=
  stack (fun blanks => maxBlank.countBelow blanks) 0 (rows.dropWhile Option.isNone)

lemma mem_arrange {maxBlank : Binary64} {t : Text} (h : t ∈ arrange maxBlank rows) :
    t = [] ∨ some t ∈ rows := by
  rcases mem_stack h with rfl | hmem
  · exact Or.inl rfl
  · exact Or.inr ((List.dropWhile_sublist _).subset hmem)

/-- The lines of a formatted script are arranged already, and a blank one after them is dropped. -/
lemma arrange_map_row (maxBlank : Binary64) (hrows : ∀ t, some t ∈ rows → t ≠ []) :
    arrange maxBlank ((arrange maxBlank rows).map row ++ [none]) = arrange maxBlank rows := by
  have hhead := List.head?_dropWhile_not Option.isNone rows
  have hrows' : ∀ t, some t ∈ rows.dropWhile Option.isNone → t ≠ [] :=
    fun t ht => hrows t ((List.dropWhile_sublist _).subset ht)
  simp only [arrange]
  generalize rows.dropWhile Option.isNone = body at hhead hrows' ⊢
  match body with
  | [] => rfl
  | none :: rest => cases hhead
  | some t :: rest =>
    have ht : row t = some t := row_of_ne_nil (hrows' t (by simp))
    have hdrop : ((stack (fun blanks => maxBlank.countBelow blanks) 0 (some t :: rest)).map row ++
        [none]).dropWhile Option.isNone =
          (stack (fun blanks => maxBlank.countBelow blanks) 0 (some t :: rest)).map row ++
            [none] := by
      simp [stack, ht]
    rw [hdrop, stack_append_none, stack_stack maxBlank.countBelow_countBelow hrows']

/-! ### Rows of a script -/

lemma mapM_eq_ok_iff {α β ε : Type} (f : α → Except ε β) (xs : List α) (ys : List β) :
    xs.mapM f = .ok ys ↔ List.Forall₂ (fun x y => f x = .ok y) xs ys := by
  induction xs generalizing ys with
  | nil => cases ys <;> simp [pure, Except.pure]
  | cons x xs ih =>
    rw [List.mapM_cons, List.forall₂_cons_left_iff]
    cases hx : f x with
    | error e => simp [bind, Except.bind]
    | ok y =>
      cases hxs : xs.mapM f with
      | error e => simp [bind, Except.bind, ← ih, hxs]
      | ok ys' => simp [bind, Except.bind, pure, Except.pure, ← ih, hxs, eq_comm]

/-- A failure comes from the first element that fails. -/
lemma exists_of_mapM_eq_error {α β ε : Type} {f : α → Except ε β} {xs : List α} {e : ε}
    (h : xs.mapM f = .error e) : ∃ before x after, xs = before ++ x :: after ∧
      (∀ y ∈ before, ∃ z, f y = .ok z) ∧ f x = .error e := by
  induction xs with
  | nil => cases h
  | cons x xs ih =>
    rw [List.mapM_cons] at h
    cases hx : f x with
    | error e' =>
      obtain rfl : e' = e := by simpa [hx, bind, Except.bind] using h
      exact ⟨[], x, xs, rfl, by simp, hx⟩
    | ok z =>
      have hxs : xs.mapM f = .error e := by
        rw [hx] at h
        cases hmap : xs.mapM f with
        | error e' => simpa [hmap, bind, Except.bind] using h
        | ok zs => simp [hmap, bind, Except.bind, pure, Except.pure] at h
      obtain ⟨before, y, after, rfl, hbefore, hy⟩ := ih hxs
      exact ⟨x :: before, y, after, rfl, List.forall_mem_cons.mpr ⟨⟨z, hx⟩, hbefore⟩, hy⟩

lemma mapError_eq_ok_iff {α ε ε' : Type} {x : Except ε α} {f : ε → ε'} {a : α} :
    x.mapError f = .ok a ↔ x = .ok a := by
  cases x <;> simp [Except.mapError]

lemma mapError_eq_error_iff {α ε ε' : Type} {x : Except ε α} {f : ε → ε'} {e : ε'} :
    x.mapError f = .error e ↔ ∃ c, x = .error c ∧ f c = e := by
  cases x <;> simp [Except.mapError]

/-- A script is formatted by formatting its lines. -/
theorem script_eq_ok_iff (maxBlank : Binary64) :
    script maxBlank source = .ok formatted ↔
      ∃ rows, List.Forall₂ (fun t r => line t = .ok r) source.lines rows ∧
        formatted = Text.unlines (arrange maxBlank rows) := by
  have hrows (rows : List (Option Text)) :
      (ScriptLine.all source).mapM (fun l => (line l.text).mapError fun e =>
        Error.unformattable l.number (.malformed e)) = .ok rows ↔
      List.Forall₂ (fun t r => line t = .ok r) source.lines rows := by
    rw [mapM_eq_ok_iff, ← ScriptLine.map_text_all, List.forall₂_map_left_iff]
    simp only [mapError_eq_ok_iff]
  rw [script]
  constructor
  · intro h
    cases hmap : (ScriptLine.all source).mapM fun l => (line l.text).mapError fun e =>
        Error.unformattable l.number (.malformed e) with
    | error e => simp [hmap, bind, Except.bind] at h
    | ok rows =>
      refine ⟨rows, (hrows rows).mp hmap, ?_⟩
      simpa [hmap, arrange, bind, Except.bind, pure, Except.pure, eq_comm] using h
  · rintro ⟨rows, h, rfl⟩
    simp [(hrows rows).mpr h, arrange, bind, Except.bind, pure, Except.pure]

/-- Every row of a script comes from one of its lines. -/
lemma exists_line_of_mem_rows (h : List.Forall₂ (fun t r => line t = .ok r) source.lines rows)
    {r : Option Text} (hr : r ∈ rows) : ∃ t ∈ source.lines, line t = .ok r := by
  obtain ⟨i, hi, rfl⟩ := List.mem_iff_getElem.mp hr
  have hlength := h.length_eq
  exact ⟨source.lines[i], List.getElem_mem _, h.get (i := i) (by omega) hi⟩

/-- Every line of a script has a row. -/
lemma exists_row_of_mem_lines (h : List.Forall₂ (fun t r => line t = .ok r) source.lines rows)
    {t : Text} (ht : t ∈ source.lines) : ∃ r, line t = .ok r := by
  obtain ⟨i, hi, rfl⟩ := List.mem_iff_getElem.mp ht
  have hlength := h.length_eq
  exact ⟨_, h.get hi (by omega)⟩

/-- All rows of a script stay as they are. -/
lemma isFormatted_of_mem_rows (h : List.Forall₂ (fun t r => line t = .ok r) source.lines rows)
    {u : Text} (hu : some u ∈ rows) : IsFormatted u := by
  obtain ⟨t, ht, hline⟩ := exists_line_of_mem_rows h hu
  exact isFormatted_of_line hline (Text.notMem_of_mem_lines ht)

/-- The rows that are read off the lines of a text that is laid out. -/
lemma forall₂_map_row {ls : List Text} (h : ∀ t ∈ ls, t = [] ∨ IsFormatted t) :
    List.Forall₂ (fun t r => line t = .ok r) ls (ls.map row) := by
  rw [List.forall₂_map_right_iff, List.forall₂_same]
  intro t ht
  rcases h t ht with rfl | hformatted
  · exact line_nil
  · rw [row_of_ne_nil hformatted.isTrimmed.ne_nil]
    exact hformatted.line_eq

/-- The lines of a formatted script are those that are arranged, and a blank one after them. -/
lemma lines_unlines_arrange {maxBlank : Binary64}
    (h : List.Forall₂ (fun t r => line t = .ok r) source.lines rows) :
    (Text.unlines (arrange maxBlank rows)).lines = arrange maxBlank rows ++ [[]] := by
  apply Text.lines_unlines
  intro t ht
  rcases mem_arrange ht with rfl | hmem
  · exact Text.isLine_nil
  · exact (isFormatted_of_mem_rows h hmem).isLine

/-- A script that is formatted stays as it is. -/
lemma script_unlines_arrange {maxBlank : Binary64}
    (h : List.Forall₂ (fun t r => line t = .ok r) source.lines rows) :
    script maxBlank (Text.unlines (arrange maxBlank rows)) =
      .ok (Text.unlines (arrange maxBlank rows)) := by
  have hformatted : ∀ u, some u ∈ rows → IsFormatted u := fun u => isFormatted_of_mem_rows h
  have hlines : ∀ t ∈ arrange maxBlank rows, t = [] ∨ IsFormatted t :=
    fun t ht => (mem_arrange ht).imp_right (hformatted t)
  apply (script_eq_ok_iff maxBlank).mpr
  refine ⟨(arrange maxBlank rows).map row ++ [none], ?_, ?_⟩
  · rw [lines_unlines_arrange h]
    exact List.rel_append (forall₂_map_row hlines) (.cons line_nil .nil)
  · rw [arrange_map_row maxBlank fun t ht => (hformatted t ht).isTrimmed.ne_nil]

/-- Formatting a script once is enough: formatting it again changes nothing, however many blank
lines are kept. -/
theorem script_idempotent (maxBlank : Binary64) (h : script maxBlank source = .ok formatted) :
    script maxBlank formatted = .ok formatted := by
  obtain ⟨rows, hrows, rfl⟩ := (script_eq_ok_iff maxBlank).mp h
  exact script_unlines_arrange hrows

/-- A comment with a carriage return in it, and three blank lines of which half of one is kept. -/
theorem script_idempotent_comment :
    script (.finite (1 / 2)) "\n ; a\r b \r\n\n\t\n\r\n( add\t1  2)" =
      .ok "; a\r b\n\n(add 1 2)\n" ∧
    script (.finite (1 / 2)) "; a\r b\n\n(add 1 2)\n" = .ok "; a\r b\n\n(add 1 2)\n" := by
  have hformat : script (.finite (1 / 2)) "\n ; a\r b \r\n\n\t\n\r\n( add\t1  2)" =
      .ok "; a\r b\n\n(add 1 2)\n" := by
    decide +kernel
  exact ⟨hformat, script_idempotent _ hformat⟩

end Sprig.Format
