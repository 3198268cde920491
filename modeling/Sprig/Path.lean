import Sprig.Text.Split

/-!
# Paths

An absolute path is the list of the names on the way from the root. A name given by a user is
resolved against a directory: it starts at the root if a slash comes first, empty names and single
dots are dropped, and two dots take the last name back.
-/

namespace Sprig

/-- An absolute path: the names from the root on. -/
abbrev Path := List Text

namespace Path

/-- The path after one more name. -/
def follow (p : Path) (name : Text) : Path :=
  if name = [] ∨ name = ("." : Text) then p
  else if name = (".." : Text) then p.dropLast
  else p ++ [name]

/-- The path that a name leads to from a directory. -/
def resolve (directory : Path) (name : Text) : Path :=
  let start := if name.head? = some CodeUnit.slash then [] else directory
  (name.split CodeUnit.slash).foldl follow start

/-- A path as messages show it. -/
def toText (p : Path) : Text :=
  if p.isEmpty then [CodeUnit.slash] else p.flatMap fun name => CodeUnit.slash :: name

end Path

end Sprig
