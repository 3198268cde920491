import Sprig.Program.Interpreter

/-!
# The command line

The outer layer of the `sprig` program: the files that the arguments name are read before the
command runs, and written back where it changed them. A session reads its lines as they come.
-/

namespace Sprig.Main

/-- A text as a string; half of a surrogate pair becomes the replacement character. -/
def render (t : Text) : String :=
  String.ofList (t.scalars.map fun v =>
    Char.ofNat (if Text.isSurrogate v then Utf8.replacement else v))

/-- Shows an event on the terminal. -/
def perform : Event → IO Unit
  | .out line => IO.println (render line)
  | .err line => IO.eprintln (render line)
  | .write text => IO.print (render text)
  | .prompt text => do
    IO.print (render text)
    (← IO.getStdout).flush
  | .clear => IO.print "\x1b[1;1H\x1b[0J"

/-- Adds what a path leads to, if anything. -/
def addPath (store : FileStore) (path : Path) : IO FileStore := do
  let isDirectory ← try (← IO.FS.realPath (render path.toText)).isDir catch _ => return store
  if isDirectory then return { store with directories := path :: store.directories }
  let bytes ← try IO.FS.readBinFile (render path.toText) catch _ => return store
  return { store with files := (path, bytes.toList) :: store.files }

/-- The working directory, the configuration file in it, and the files of the given names. -/
def readStore (names : List Text) : IO FileStore := do
  let directory := Path.resolve [] (← IO.currentDir).toString
  let empty : FileStore := ⟨directory, [], []⟩
  ((configFileName :: names).map empty.resolve).eraseDups.foldlM addPath empty

/-- Writes the files that have changed. -/
def writeChanges (old new : FileStore) : IO Unit :=
  for (path, bytes) in new.files do
    if old.files.lookup path ≠ some bytes then
      IO.FS.writeBinFile (render path.toText) ⟨bytes.toArray⟩

/-- Takes lines of input until the session is left or the input ends. -/
partial def readLines (session : Session) : IO Unit := do
  let line ← (← IO.getStdin).getLine
  if line.isEmpty then return
  let text := (Text.lines line).headD []
  let (reply, next) := session.take text
  reply.events.forM perform
  if reply.action = .quit then return
  readLines next

/-- Runs a session with the options that hold. -/
def runSession (store : FileStore) (limitVariable : Option Text) : IO UInt32 := do
  match Options.loadFrom store limitVariable with
  | .error e =>
    perform (.err e.message)
    return 1
  | .ok options =>
    Session.greeting.forM perform
    readLines (.start options.maxDepth)
    Session.farewell.forM perform
    return 0

/-- Runs a command, and shows its events once its changes are written. -/
def runCommand (command : Command) (store : FileStore) (limitVariable : Option Text) :
    IO UInt32 := do
  let run := Program.runCommand limitVariable [] store command
  writeChanges store run.store
  run.events.forM perform
  match run.exit with
  | .ok code => return code.toUInt32
  | .error failure =>
    perform (.err failure.message)
    return 1

end Sprig.Main

/-- The `sprig` program. -/
def main (arguments : List String) : IO UInt32 := do
  let arguments : List Sprig.Text := arguments.map Sprig.Text.ofString
  let store ← Sprig.Main.readStore arguments
  let value ← IO.getEnv (Sprig.Main.render Sprig.maxDepthVariable)
  let limitVariable := value.map Sprig.Text.ofString
  match Sprig.Command.ofArguments arguments with
  | .task .repl => Sprig.Main.runSession store limitVariable
  | command => Sprig.Main.runCommand command store limitVariable
