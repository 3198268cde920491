import Sprig.Script

/-!
# Formatting

The layout that the grammar asks for: one space between neighbouring expressions, and none after
an opening or before a closing parenthesis. Any run of blanks counts as a separator, also none
between tokens that stand side by side. The units of the tokens stay as they are, so only a unit
that no token starts with makes formatting fail.

In a script, expressions are laid out each on its line and comments are trimmed. Blank lines
are dropped at the start and at the end, and a run of them elsewhere is kept up to a maximum.
-/

namespace Sprig.Format

/-! ### Expressions -/

/-- Whether a token takes part in the layout. -/
def isVisible (t : Token) : Bool := t.kind ≠ .space ∧ t.kind ≠ .endOfFile

/-- Whether a space goes between two neighbouring tokens. -/
def spaceBetween (left right : Token) : Bool :=
  left.kind ≠ .openParen ∧ right.kind ≠ .closeParen

/-- The layout of tokens that follow another one. -/
def layoutAfter : (previous : Token) → List Token → Text
  | _, [] => []
  | previous, t :: ts =>
    (if spaceBetween previous t then [CodeUnit.space] else []) ++ t.text ++ layoutAfter t ts

/-- The layout of tokens. -/
def layout : List Token → Text
  | [] => []
  | t :: ts => t.text ++ layoutAfter t ts

/-- An expression in its layout. Positions in an error count the text with its runs of blanks
collapsed and its ends trimmed. -/
def expression (source : Text) : Except SyntaxError Text :=
  source.collapse.trim.tokens.map fun tokens => layout (tokens.filter isVisible)

/-! ### Scripts -/

/-- A line in its layout, none for a blank one. -/
def line (t : Text) : Except SyntaxError (Option Text) :=
  match t.lineKind with
  | .blank => .ok none
  | .comment => .ok (some t.trim)
  | .expression => (expression t).map some

/-- Puts lines below each other after some blank ones that are pending. Of a run of blank lines as
many as `kept` says are kept, none of one at the end. -/
def stack (kept : Nat → Nat) : (blanks : Nat) → List (Option Text) → List Text
  | _, [] => []
  | blanks, none :: rest => stack kept (blanks + 1) rest
  | blanks, some t :: rest => List.replicate (kept blanks) [] ++ t :: stack kept 0 rest

/-- The number of blank lines that are kept by default. -/
def defaultMaxBlank : Binary64 := .finite 1

/-- A script in its layout, every line ended by a line feed. A run of blank lines is cut to
the number of lines that come before `maxBlank` is reached. The first line that cannot be laid out
makes the whole fail. -/
def script (maxBlank : Binary64) (t : Text) : Except Error Text := do
  let lines ← (ScriptLine.all t).mapM fun l =>
    (line l.text).mapError fun e => Error.unformattable l.number (.malformed e)
  return Text.unlines (stack (fun blanks => maxBlank.countBelow blanks) 0
    (lines.dropWhile Option.isNone))

end Sprig.Format
