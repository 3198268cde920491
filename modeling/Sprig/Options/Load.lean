import Sprig.FileStore
import Sprig.Json.Reader
import Sprig.Number.Numeral
import Sprig.Options.Basic
import Sprig.Text.Utf8

/-!
# Loading options

The options that hold in a directory: those of the configuration file in it, if there is one,
and above them those of the environment. The file is checked first, also where the environment
overrides it.
-/

namespace Sprig

/-- The name of the configuration file. -/
def configFileName : Text := "sprig.config.json"

/-- The environment variable of the nesting limit. -/
def maxDepthVariable : Text := "SPRIG_MAX_DEPTH"

namespace Options

/-- The value that a configuration file holds. -/
def readDocument? : FileNode → Option Json
  | .file bytes => Json.ofText? (Utf8.decode bytes)
  | .directory => none

/-- The reason why a configuration file holds no value is left out of a message. -/
def noReason (_ : FileNode) : Text := "..."

/-- The options with those of a configuration file. The reason that a message gives for a file
without a value is that of the parser, or of the system if the file cannot be read. -/
def withFile (reason : FileNode → Text) (file : Option FileNode) (defaults : Options) :
    Except Error Options :=
  match file with
  | none => .ok defaults
  | some entry =>
    match readDocument? entry with
    | none =>
      .error (.configuration configFileName [(Problem.notJson (reason entry)).describe])
    | some overrides => override configFileName overrides defaults

/-- The options with the value of the environment variable. -/
def withVariable (value : Option Text) (defaults : Options) : Except Error Options :=
  match value with
  | none => .ok defaults
  | some t =>
    let problems := t.toNumber.depthProblems
    if problems.isEmpty then .ok { defaults with maxDepth := t.toNumber.toDepth }
    else .error (.ofIssues "environment" (problems.map fun p => ⟨some maxDepthVariable, p⟩))

/-- The options that hold with a configuration file and a value of the environment variable. -/
def load (reason : FileNode → Text) (file : Option FileNode) (value : Option Text) :
    Except Error Options :=
  (withFile reason file {}).bind (withVariable value)

/-- The options that hold in the working directory. -/
def loadFrom (s : FileStore) (value : Option Text) (reason : FileNode → Text := noReason) :
    Except Error Options :=
  load reason (s.find? (s.resolve configFileName)) value

end Options

end Sprig
