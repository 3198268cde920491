import Sprig.Path

/-!
# Files

The files that a program can see: the working directory, the contents of files by their paths,
and directories that may be empty. Every directory on the way to a file exists. A file that is there
can be read and written, so writing cannot fail, and two paths never lead to one file.
-/

namespace Sprig

/-- What a path leads to. -/
inductive FileNode where
  | file (bytes : List UInt8)
  | directory
  deriving DecidableEq, Repr

/-- The files that a program can see. -/
structure FileStore where
  workingDirectory : Path
  files : List (Path × List UInt8)
  directories : List Path
  deriving DecidableEq, Repr

namespace FileStore

/-- What a path leads to, if anything. -/
def find? (s : FileStore) (p : Path) : Option FileNode :=
  match s.files.lookup p with
  | some bytes => some (.file bytes)
  | none =>
    if (s.workingDirectory :: s.directories ++ s.files.map Prod.fst).any fun q => p.isPrefixOf q
    then some .directory
    else none

/-- Replaces the contents of a file. -/
def write (s : FileStore) (p : Path) (bytes : List UInt8) : FileStore :=
  { s with files := s.files.map fun f => if f.1 = p then (p, bytes) else f }

/-- The path that a name leads to from the working directory. -/
def resolve (s : FileStore) (name : Text) : Path := s.workingDirectory.resolve name

@[simp] theorem workingDirectory_write (s : FileStore) (p : Path) (bytes : List UInt8) :
    (s.write p bytes).workingDirectory = s.workingDirectory := rfl

@[simp] theorem resolve_write (s : FileStore) (p : Path) (bytes : List UInt8) (name : Text) :
    (s.write p bytes).resolve name = s.resolve name := rfl

end FileStore

end Sprig
