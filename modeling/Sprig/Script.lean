import Sprig.Evaluation.Expression
import Sprig.Text.Lines

/-!
# Scripts

A script is a text with one expression on a line. A line of blanks only is ignored, and so is a
comment, whose first unit after leading blanks is a semicolon. Every expression is evaluated on
its own, as it stands in its line.
-/

namespace Sprig

/-- What a line of a script is. -/
inductive LineKind where
  | blank
  | comment
  | expression
  deriving DecidableEq, Repr

namespace Text

/-- Whether the first unit after leading blanks is a semicolon. -/
def isComment (t : Text) : Bool := t.trimStart.head? = some CodeUnit.semicolon

/-- What a line is. -/
def lineKind (t : Text) : LineKind :=
  if t.trim = [] then .blank else if t.isComment then .comment else .expression

end Text

/-- A line of a script, with its number counted from one. -/
structure ScriptLine where
  number : Nat
  text : Text
  deriving DecidableEq, Repr

namespace ScriptLine

/-- All lines of a script. -/
def all (source : Text) : List ScriptLine :=
  (source.lines.zipIdx 1).map fun (text, number) => ⟨number, text⟩

@[simp] theorem map_text_all (source : Text) : (all source).map text = source.lines := by
  simp [all, Function.comp_def]

/-- The lines that hold an expression. -/
def expressions (source : Text) : List ScriptLine :=
  (all source).filter fun line => line.text.lineKind = .expression

end ScriptLine

/-- The outcome of every expression of a script. -/
def evaluateLines (limit : Nat) (source : Text) : List (ScriptLine × Except Error Int) :=
  (ScriptLine.expressions source).map fun line => (line, evaluate limit line.text)

end Sprig
