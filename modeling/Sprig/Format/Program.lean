import Sprig.Format.Basic
import Sprig.Run
import Sprig.Text.Utf8

/-!
# The formatter as a program

The arguments are options and names of files. The options are read in full before any file is
touched. The files are then taken in order: each is laid out in place if it is not yet, or,
as the options say, only checked or printed. The first one that is missing or cannot be laid out
ends the run.
-/

namespace Sprig.Format

/-- What the arguments ask for. -/
structure Settings where
  check : Bool := false
  print : Bool := false
  maxBlank : Binary64 := defaultMaxBlank
  names : List Text := []

/-- The lines of the help text. -/
def usage : List Text :=
  [("Sprig Formatter v" : Text) ++ version,
    "",
    "Usage:",
    "  sprig fmt <file.sprig> [options]",
    "",
    "Options:",
    "  --check              Check if files are formatted (exit 1 if not)",
    "  --stdout             Print formatted output to stdout",
    "  --max-blank <n>      Longest run of blank lines to keep (default: 1)",
    "  --help, -h           Show this help"]

/-- Whether the help text is asked for: there are no arguments, or one of them is an option for
it, wherever it stands. -/
def asksForHelp (arguments : List Text) : Bool :=
  arguments.isEmpty || arguments.any fun a => a = ("--help" : Text) || a = ("-h" : Text)

/-- The number of blank lines that an option's value stands for: an integer that is not negative,
in any form of a numeral, but not blank. -/
def maxBlank? (value : Text) : Option Binary64 :=
  let x := value.toNumber
  if value.trim.isEmpty then none
  else if x.isInteger && x.isAtLeast 0 then some x else none

/-- Reads the arguments, or says what is wrong with the first bad one. -/
def readArguments : Settings → List Text → Except Text Settings
  | s, [] => .ok s
  | s, a :: rest =>
    if a = ("--check" : Text) then readArguments { s with check := true } rest
    else if a = ("--stdout" : Text) then readArguments { s with print := true } rest
    else if a = ("--max-blank" : Text) then
      match rest with
      | [] => .error "Error: --max-blank must be a non-negative number"
      | value :: rest =>
        match maxBlank? value with
        | some x => readArguments { s with maxBlank := x } rest
        | none => .error "Error: --max-blank must be a non-negative number"
    else if a.head? = some CodeUnit.minus then .error (("Unknown option: " : Text) ++ a)
    else readArguments { s with names := s.names ++ [a] } rest

/-- Takes the files of the given names in order. The run succeeds if none of them ends it and,
where they are only checked, all are `clean`. -/
def takeFiles (s : Settings) : (clean : Bool) → List Text → FileStore → Run
  | clean, [], store => .print (if s.check && !clean then 1 else 0) [] store
  | clean, name :: names, store =>
    let path := store.resolve name
    match store.find? path with
    | none => .print 1 [.err (("Error: File not found: " : Text) ++ path.toText)] store
    | some .directory => ⟨.error .isDirectory, [], store⟩
    | some (.file bytes) =>
      let old := Utf8.decode bytes
      match script s.maxBlank old with
      | .error e =>
        let message := ("Error formatting " : Text) ++ name ++ (": " : Text) ++ e.message
        .print 1 [.err message] store
      | .ok new =>
        if s.check then
          if old = new then
            (takeFiles s clean names store).after [.out (("Already formatted: " : Text) ++ name)]
          else (takeFiles s false names store).after [.out (("Would reformat: " : Text) ++ name)]
        else if s.print then (takeFiles s clean names store).after [.write new]
        else if old = new then
          (takeFiles s clean names store).after [.out (("Unchanged: " : Text) ++ name)]
        else
          (takeFiles s clean names (store.write path (Utf8.encode new))).after
            [.out (("Formatted: " : Text) ++ name)]

/-- Runs the formatter. -/
def run (arguments : List Text) (store : FileStore) : Run :=
  if asksForHelp arguments then .print 0 (usage.map .out) store
  else
    match readArguments {} arguments with
    | .error message => .print 1 [.err message] store
    | .ok s =>
      if s.names.isEmpty then .print 1 [.err "Error: no files specified"] store
      else takeFiles s true s.names store

end Sprig.Format
