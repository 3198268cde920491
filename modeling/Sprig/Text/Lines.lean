import Sprig.Text.Split

/-!
# Lines

A line ends at a line feed, or at a carriage return directly before a line feed; the ends belong
to no line. A carriage return elsewhere is an ordinary unit of its line, also one at the end of
the last line.
-/

namespace Sprig.Text

/-- The text without the carriage return it may end in. -/
def dropReturn (t : Text) : Text :=
  if t.getLast? = some CodeUnit.carriageReturn then t.dropLast else t

/-- Drops a carriage return at the end of every piece but the last. -/
def dropReturns : List Text → List Text
  | [] => []
  | [last] => [last]
  | piece :: next :: rest => dropReturn piece :: dropReturns (next :: rest)

/-- The lines of a text, without their ends. -/
def lines (t : Text) : List Text := dropReturns (t.split CodeUnit.lineFeed)

/-- The text of lines that all end in a line feed. -/
def unlines (ls : List Text) : Text := ls.flatMap fun t => t ++ [CodeUnit.lineFeed]

@[simp] theorem unlines_nil : unlines [] = [] := rfl

@[simp] theorem unlines_cons (t : Text) (ls : List Text) :
    unlines (t :: ls) = t ++ CodeUnit.lineFeed :: unlines ls := by
  simp [unlines]

end Sprig.Text
