import Sprig.Demonstration
import Sprig.Format.Program
import Sprig.Options.Load
import Sprig.Program.Command
import Sprig.Session.Transcript

/-!
# The interpreter as a program

Help and formatting need no options. Every other command loads them first, and fails if they are
not accepted.
-/

namespace Sprig

/-- The lines of the help text. -/
def usage : List Text :=
  [("Sprig v" : Text) ++ version,
    "",
    "Usage:",
    "  sprig <file.sprig>                 Evaluate each expression line in a file",
    "  sprig run <file.sprig>             Evaluate each expression line in a file",
    "  sprig --eval \"<expr>\"              Evaluate one expression",
    "  sprig repl                         Start interactive REPL",
    "  sprig demo                         Run the demo expressions",
    "  sprig fmt <file.sprig> [--check]   Format Sprig files",
    "  sprig --help                       Show this help",
    "",
    "Configuration: sprig.config.json in the working directory, or SPRIG_MAX_DEPTH."]

namespace Program

/-- The event of an expression in a line of a file. -/
def lineEvent (file : Text) : ScriptLine × Except Error Int → Event
  | (_, .ok value) => .out (Text.ofInt value)
  | (line, .error e) =>
    .err (file ++ (":" : Text) ++ Text.ofNat line.number ++ (": " : Text) ++ e.message)

/-- Evaluates every expression of a file. The run fails if one of them does. -/
def runScript (limit : Nat) (file : Text) (store : FileStore) : Run :=
  let path := store.resolve file
  match store.find? path with
  | none => .print 1 [.err (("Error: File not found: " : Text) ++ path.toText)] store
  | some .directory => ⟨.error .isDirectory, [], store⟩
  | some (.file bytes) =>
    let outcomes := evaluateLines limit (Utf8.decode bytes)
    .print (if outcomes.all fun o => o.2.isOk then 0 else 1) (outcomes.map (lineEvent file)) store

/-- Evaluates one expression. -/
def runExpression (limit : Nat) (expression : Text) (store : FileStore) : Run :=
  match evaluate limit expression with
  | .ok value => .print 0 [.out (Text.ofInt value)] store
  | .error e => .print 1 [.err e.message] store

/-- Runs a task, with the lines of input that a session gets. -/
def runTask (limit : Nat) (input : List Text) (store : FileStore) : Task → Run
  | .repl => .print 0 (Session.events limit input) store
  | .demo => .print 0 ((Demonstration.showAll limit).2.map .out) store
  | .eval expression => runExpression limit expression store
  | .run file => runScript limit file store

/-- Runs a command, with the value of the environment variable and the lines of input. -/
def runCommand (limitVariable : Option Text) (input : List Text) (store : FileStore) : Command → Run
  | .help => .print 0 (usage.map .out) store
  | .refused message => .print 1 [.err message] store
  | .format arguments => Format.run arguments store
  | .task task =>
    match Options.loadFrom store limitVariable with
    | .error e => .print 1 [.err e.message] store
    | .ok options => runTask options.maxDepth input store task

/-- Runs the program with its arguments. -/
def run (arguments : List Text) (limitVariable : Option Text) (input : List Text)
    (store : FileStore) : Run :=
  runCommand limitVariable input store (.ofArguments arguments)

end Program

end Sprig
