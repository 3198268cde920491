import Sprig.Text.Basic

/-!
# Blank units

The units that count as white space when a text is trimmed, when the formatter reads separators
and when a number is read: the ASCII controls from tab to carriage return, the space separators
of Unicode, its line and paragraph separators, and the byte order mark. The next-line control
and the zero-width space are not among them.
-/

namespace Sprig

/-- The units that count as white space. -/
def CodeUnit.isBlank (u : CodeUnit) : Bool :=
  (0x09 ≤ u && u ≤ 0x0D) || u == 0x20 || u == 0xA0 || u == 0x1680 ||
    (0x2000 ≤ u && u ≤ 0x200A) || u == 0x2028 || u == 0x2029 || u == 0x202F || u == 0x205F ||
    u == 0x3000 || u == 0xFEFF

namespace Text

/-- The text without the blanks at its start. -/
def trimStart (t : Text) : Text := t.dropWhile CodeUnit.isBlank

/-- The text without the blanks at its end. -/
def trimEnd (t : Text) : Text := (t.reverse.dropWhile CodeUnit.isBlank).reverse

/-- The text without the blanks at either end. -/
def trim (t : Text) : Text := t.trimStart.trimEnd

/-- A text of blanks only. -/
def isBlank (t : Text) : Bool := t.all CodeUnit.isBlank

/-- Puts a unit before a text without runs of blanks; a blank becomes a space, or vanishes into
the one that follows. -/
def consCollapsed (u : CodeUnit) (t : Text) : Text :=
  if u.isBlank then if t.head? = some CodeUnit.space then t else CodeUnit.space :: t
  else u :: t

/-- Every run of blanks made one space. -/
def collapse (t : Text) : Text := t.foldr consCollapsed []

@[simp] theorem collapse_nil : collapse [] = [] := rfl

@[simp] theorem collapse_cons (u : CodeUnit) (t : Text) :
    collapse (u :: t) = consCollapsed u (collapse t) := by
  simp only [collapse, List.foldr_cons]

@[simp] theorem trimStart_nil : trimStart [] = [] := rfl

end Text

end Sprig
