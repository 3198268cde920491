import Sprig.Run
import Sprig.Session.Basic

/-!
# Transcripts

What a session shows on the terminal: a greeting, a prompt before every new input, and a farewell
when the session is left or the input ends. While an input goes on, dots take the place of the
prompt.
-/

namespace Sprig.Session

/-- The events before the first line. -/
def greeting : List Event :=
  [.out (("Sprig REPL v" : Text) ++ version), .out "Type :help for commands, :quit to exit.\n",
    .prompt "sprig> "]

/-- The events after the last line. -/
def farewell : List Event := [.out "\nGoodbye!"]

/-- The events of an answer. -/
def Reply.events (r : Reply) : List Event :=
  r.output.map .out ++ r.errors.map .err ++
    match r.action with
    | .proceed => [.prompt "sprig> "]
    | .more => [.write "  ... "]
    | .quit => []
    | .clear => [.clear, .prompt "sprig> "]

/-- The events of the lines of a session, up to one that leaves it. -/
def lineEvents : Session → List Text → List Event
  | _, [] => []
  | s, line :: lines =>
    let (reply, next) := s.take line
    reply.events ++ if reply.action = .quit then [] else lineEvents next lines

/-- The events of a whole session. -/
def events (limit : Nat) (lines : List Text) : List Event :=
  greeting ++ lineEvents (.start limit) lines ++ farewell

end Sprig.Session
