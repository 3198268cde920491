import Sprig.Text.Basic

/-!
# Commands

What the arguments of the interpreter ask for. A first argument that is no command and no option
is the name of a file to be run.
-/

namespace Sprig

/-- A task for the interpreter. -/
inductive Task where
  | repl
  | demo
  | eval (expression : Text)
  | run (file : Text)
  deriving DecidableEq, Repr

/-- A command. -/
inductive Command where
  | help
  | format (arguments : List Text)
  | task (task : Task)
  /-- The arguments are incomplete. -/
  | refused (message : Text)
  deriving DecidableEq, Repr

/-- The command of a list of arguments. -/
def Command.ofArguments : List Text → Command
  | [] => .help
  | first :: rest =>
    if first = ("--help" : Text) ∨ first = ("-h" : Text) then .help
    else if first = ("fmt" : Text) then .format rest
    else if first = ("repl" : Text) then .task .repl
    else if first = ("demo" : Text) then .task .demo
    else if first = ("--eval" : Text) ∨ first = ("-e" : Text) then
      match rest with
      | [] => .refused "Error: --eval requires an expression argument"
      | expression :: _ => .task (.eval expression)
    else if first = ("run" : Text) then
      match rest with
      | [] => .refused "Error: run requires a file argument"
      | file :: _ => .task (.run file)
    else .task (.run first)

end Sprig
