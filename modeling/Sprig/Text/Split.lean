import Sprig.Text.Basic

/-!
# Splitting

A text split at every occurrence of one unit, which belongs to none of the pieces. A text in which
the unit occurs `n` times has `n + 1` pieces, so the empty text has one. `Text.cut` parts a text at
the first occurrence only.
-/

namespace Sprig.Text

/-- Puts a unit before a text that has been split. -/
def consPiece (separator u : CodeUnit) : List Text → List Text
  | [] => [[u]]
  | piece :: pieces =>
    if u = separator then [] :: piece :: pieces else (u :: piece) :: pieces

/-- The pieces of a text between the occurrences of a unit. -/
def split (separator : CodeUnit) (t : Text) : List Text := t.foldr (consPiece separator) [[]]

@[simp] theorem split_nil (separator : CodeUnit) : split separator [] = [[]] := rfl

@[simp] theorem split_cons (separator u : CodeUnit) (t : Text) :
    split separator (u :: t) = consPiece separator u (split separator t) := by
  simp only [split, List.foldr_cons]

theorem split_ne_nil (separator : CodeUnit) (t : Text) : split separator t ≠ [] := by
  induction t with
  | nil => simp
  | cons u t ih =>
    rw [split_cons]
    cases h : split separator t with
    | nil => exact absurd h ih
    | cons piece pieces =>
      simp only [consPiece]
      split <;> simp

/-- What stands before the first occurrence of a unit, and what follows it if there is one. -/
def cut (separator : CodeUnit) : Text → Text × Option Text
  | [] => ([], none)
  | u :: rest =>
    if u = separator then ([], some rest)
    else
      let parts := cut separator rest
      (u :: parts.1, parts.2)

/-- A cut loses nothing but the unit itself. -/
theorem eq_append_of_cut (separator : CodeUnit) (t : Text) :
    t = (cut separator t).1 ++ (cut separator t).2.elim [] (separator :: ·) := by
  induction t with
  | nil => rfl
  | cons u t ih =>
    by_cases h : u = separator
    · simp [cut, h]
    · simpa [cut, h] using ih

/-- The unit does not occur before the cut. -/
theorem notMem_cut (separator : CodeUnit) (t : Text) : separator ∉ (cut separator t).1 := by
  induction t with
  | nil => simp [cut]
  | cons u t ih =>
    by_cases h : u = separator
    · simp [cut, h]
    · simpa [cut, h, ih] using Ne.symm h

end Sprig.Text
