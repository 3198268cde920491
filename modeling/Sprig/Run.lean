import Sprig.FileStore

/-!
# Runs

What a program does: the events on its terminal, in order, the files as it leaves them, and how it
ends.
-/

namespace Sprig

/-- An event on the terminal. -/
inductive Event where
  /-- A line on the standard output. -/
  | out (line : Text)
  /-- A line on the standard error output. -/
  | err (line : Text)
  /-- Text on the standard output, without an end of line. -/
  | write (text : Text)
  /-- The prompt for the next line of input. -/
  | prompt (text : Text)
  /-- The terminal is cleared. -/
  | clear
  deriving DecidableEq, Repr

/-- What stops a program before it can end by itself. -/
inductive Failure where
  /-- A directory is read as a file. -/
  | isDirectory
  deriving DecidableEq, Repr

namespace Failure

/-- The code of a failure. -/
def code : Failure → Text
  | isDirectory => "EISDIR"

/-- The message of a failure. -/
def message : Failure → Text
  | isDirectory => "EISDIR: illegal operation on a directory, read"

end Failure

/-- A finished run: the exit code or what stopped it, its events, and the files it leaves. -/
structure Run where
  exit : Except Failure Nat
  events : List Event
  store : FileStore

namespace Run

/-- A run with events before its own. -/
def after (events : List Event) (r : Run) : Run := { r with events := events ++ r.events }

/-- A run that prints lines and ends. -/
def print (code : Nat) (events : List Event) (store : FileStore) : Run := ⟨.ok code, events, store⟩

@[simp] theorem exit_after (events : List Event) (r : Run) : (r.after events).exit = r.exit := rfl

@[simp] theorem store_after (events : List Event) (r : Run) : (r.after events).store = r.store :=
  rfl

@[simp] theorem events_after (events : List Event) (r : Run) :
    (r.after events).events = events ++ r.events := rfl

@[simp] theorem exit_print (code : Nat) (events : List Event) (store : FileStore) :
    (print code events store).exit = .ok code := rfl

@[simp] theorem store_print (code : Nat) (events : List Event) (store : FileStore) :
    (print code events store).store = store := rfl

@[simp] theorem events_print (code : Nat) (events : List Event) (store : FileStore) :
    (print code events store).events = events := rfl

end Run

/-- The version of the programs. -/
def version : Text := "0.1.0"

end Sprig
