import Sprig.Proofs.Text.Blank
import Sprig.Text.Lines

/-!
# Texts of lines

Which texts can be lines, and that lines are read off the text that is made of them. A line has no
line feed in it, and no carriage return at its end, which would count as part of the line end.
-/

namespace Sprig.Text

variable {separator : CodeUnit} {t w : Text} {ls : List Text}

/-- A text that is a line when a line feed follows. -/
structure IsLine (t : Text) : Prop where
  notMem_lineFeed : CodeUnit.lineFeed ∉ t
  getLast?_ne : t.getLast? ≠ some CodeUnit.carriageReturn

lemma isLine_nil : IsLine [] := ⟨by simp, by simp⟩

/-- A carriage return is a blank, so a trimmed text does not end in one. -/
lemma IsTrimmed.isLine (h : t.IsTrimmed) (hfeed : CodeUnit.lineFeed ∉ t) : IsLine t where
  notMem_lineFeed := hfeed
  getLast?_ne := by
    intro hlast
    have hblank := h.last
    rw [hlast] at hblank
    exact absurd hblank (by decide)

/-! ### Splitting -/

lemma notMem_of_mem_split (h : w ∈ split separator t) : separator ∉ w := by
  induction t generalizing w with
  | nil =>
    obtain rfl : w = [] := by simpa using h
    simp
  | cons u t ih =>
    rw [split_cons] at h
    obtain ⟨piece, pieces, hsplit⟩ := List.exists_cons_of_ne_nil (split_ne_nil separator t)
    rw [hsplit] at h ih
    simp only [consPiece] at h
    split_ifs at h with hu
    · rcases List.mem_cons.mp h with rfl | h
      · simp
      · exact ih h
    · rcases List.mem_cons.mp h with rfl | h
      · simpa [Ne.symm hu] using ih (w := piece) (by simp)
      · exact ih (List.mem_cons_of_mem _ h)

lemma split_append_cons (h : separator ∉ w) (t : Text) :
    split separator (w ++ separator :: t) = w :: split separator t := by
  induction w with
  | nil =>
    obtain ⟨piece, pieces, hsplit⟩ := List.exists_cons_of_ne_nil (split_ne_nil separator t)
    simp [hsplit, consPiece]
  | cons u w ih =>
    obtain ⟨hu, hw⟩ : separator ≠ u ∧ separator ∉ w := by simpa using h
    simp [ih hw, consPiece, hu.symm]

lemma split_of_notMem (h : separator ∉ w) : split separator w = [w] := by
  induction w with
  | nil => rfl
  | cons u w ih =>
    obtain ⟨hu, hw⟩ : separator ≠ u ∧ separator ∉ w := by simpa using h
    simp [ih hw, consPiece, hu.symm]

/-! ### Lines -/

lemma mem_of_mem_dropReturn {u : CodeUnit} (h : u ∈ dropReturn t) : u ∈ t := by
  simp only [dropReturn] at h
  split_ifs at h
  · exact List.dropLast_subset t h
  · exact h

/-- What holds of the pieces between line feeds holds of the lines, if it does not hang on a
carriage return at the end. -/
lemma forall_mem_lines {p : Text → Prop} (hreturn : ∀ w, p w → p (dropReturn w))
    (h : ∀ piece ∈ split CodeUnit.lineFeed t, p piece) : ∀ w ∈ lines t, p w := by
  rw [lines]
  generalize split CodeUnit.lineFeed t = pieces at h
  induction pieces with
  | nil => simp [dropReturns]
  | cons piece pieces ih =>
    cases pieces with
    | nil => simpa [dropReturns] using h
    | cons next pieces =>
      obtain ⟨hpiece, hpieces⟩ := List.forall_mem_cons.mp h
      rw [dropReturns, List.forall_mem_cons]
      exact ⟨hreturn piece hpiece, ih hpieces⟩

lemma notMem_of_mem_lines (h : w ∈ lines t) : CodeUnit.lineFeed ∉ w :=
  forall_mem_lines (fun _ hw hfeed => hw (mem_of_mem_dropReturn hfeed))
    (fun _ => notMem_of_mem_split) w h

/-- A line comes before the lines of the text after its end. -/
lemma lines_append_cons (h : IsLine w) (t : Text) :
    lines (w ++ CodeUnit.lineFeed :: t) = w :: lines t := by
  obtain ⟨piece, pieces, hsplit⟩ :=
    List.exists_cons_of_ne_nil (split_ne_nil CodeUnit.lineFeed t)
  rw [lines, lines, split_append_cons h.notMem_lineFeed, hsplit, dropReturns, dropReturn,
    if_neg h.getLast?_ne]

/-- A carriage return before a line feed belongs to the line end. -/
lemma lines_append_return_cons (h : CodeUnit.lineFeed ∉ w) (t : Text) :
    lines (w ++ CodeUnit.carriageReturn :: CodeUnit.lineFeed :: t) = w :: lines t := by
  have hfeed : CodeUnit.lineFeed ∉ w ++ [CodeUnit.carriageReturn] := by
    simpa using ⟨h, by decide⟩
  obtain ⟨piece, pieces, hsplit⟩ :=
    List.exists_cons_of_ne_nil (split_ne_nil CodeUnit.lineFeed t)
  have hpieces := split_append_cons hfeed t
  rw [List.append_assoc, List.singleton_append] at hpieces
  rw [lines, lines, hpieces, hsplit, dropReturns, dropReturn, if_pos List.getLast?_concat,
    List.dropLast_concat]

lemma lines_of_notMem (h : CodeUnit.lineFeed ∉ w) : lines w = [w] := by
  rw [lines, split_of_notMem h, dropReturns]

/-- After the end of the last line there is one more, without units. -/
theorem lines_unlines (h : ∀ l ∈ ls, IsLine l) : lines (unlines ls) = ls ++ [[]] := by
  induction ls with
  | nil => rfl
  | cons l ls ih =>
    rw [unlines_cons, lines_append_cons (h l (by simp)), ih fun l' hl' => h l' (by simp [hl'])]
    rfl

/-! ### The first unit -/

lemma dropReturn_cons (h : t ≠ []) (u : CodeUnit) : dropReturn (u :: t) = u :: dropReturn t := by
  obtain ⟨v, t, rfl⟩ := List.exists_cons_of_ne_nil h
  simp only [dropReturn, List.getLast?_cons_cons, List.dropLast_cons_cons]
  split_ifs <;> rfl

/-- A carriage return at the end is a blank, so the first unit that is none stays. -/
lemma head?_trimStart_dropReturn {u : CodeUnit} (h : t.trimStart.head? = some u) :
    (dropReturn t).trimStart.head? = some u := by
  induction t with
  | nil => cases h
  | cons v t ih =>
    by_cases hblank : v.isBlank
    · have htail : (trimStart t).head? = some u := by simpa [trimStart, hblank] using h
      have hne : t ≠ [] := by
        rintro rfl
        cases htail
      rw [dropReturn_cons hne]
      simpa [trimStart, hblank] using ih htail
    · obtain rfl : v = u := by simpa [trimStart, hblank] using h
      by_cases hne : t = []
      · subst hne
        have hreturn : v ≠ CodeUnit.carriageReturn := by
          rintro rfl
          exact hblank (by decide)
        simpa [dropReturn, hreturn] using h
      · rw [dropReturn_cons hne]
        simp [trimStart, hblank]

lemma exists_mem_split {u : CodeUnit} (h : t.trimStart.head? = some u) :
    ∃ piece ∈ split CodeUnit.lineFeed t, piece.trimStart.head? = some u := by
  induction t with
  | nil => cases h
  | cons v t ih =>
    obtain ⟨piece, pieces, hsplit⟩ := List.exists_cons_of_ne_nil (split_ne_nil CodeUnit.lineFeed t)
    rw [split_cons, hsplit, consPiece]
    by_cases hblank : v.isBlank
    · have htail : (trimStart t).head? = some u := by simpa [trimStart, hblank] using h
      obtain ⟨w, hw, hhead⟩ := ih htail
      rw [hsplit] at hw
      split_ifs with hfeed
      · exact ⟨w, List.mem_cons_of_mem _ hw, hhead⟩
      · rcases List.mem_cons.mp hw with rfl | hw
        · exact ⟨v :: w, List.mem_cons_self, by simpa [trimStart, hblank] using hhead⟩
        · exact ⟨w, List.mem_cons_of_mem _ hw, hhead⟩
    · obtain rfl : v = u := by simpa [trimStart, hblank] using h
      have hfeed : v ≠ CodeUnit.lineFeed := by
        rintro rfl
        exact hblank (by decide)
      rw [if_neg hfeed]
      exact ⟨v :: piece, List.mem_cons_self, by simp [trimStart, hblank]⟩

lemma mem_dropReturns {pieces : List Text} (h : w ∈ pieces) :
    w ∈ dropReturns pieces ∨ dropReturn w ∈ dropReturns pieces := by
  induction pieces with
  | nil => cases h
  | cons piece pieces ih =>
    cases pieces with
    | nil => exact Or.inl h
    | cons next pieces =>
      rw [dropReturns]
      rcases List.mem_cons.mp h with rfl | hw
      · exact Or.inr List.mem_cons_self
      · exact (ih hw).imp (List.mem_cons_of_mem _) (List.mem_cons_of_mem _)

/-- The first unit of a text that is no blank is the first such unit of one of its lines. -/
lemma exists_mem_lines {u : CodeUnit} (h : t.trimStart.head? = some u) :
    ∃ l ∈ lines t, l.trimStart.head? = some u := by
  obtain ⟨piece, hpiece, hhead⟩ := exists_mem_split h
  rcases mem_dropReturns hpiece with hmem | hmem
  · exact ⟨piece, hmem, hhead⟩
  · exact ⟨dropReturn piece, hmem, head?_trimStart_dropReturn hhead⟩

end Sprig.Text
