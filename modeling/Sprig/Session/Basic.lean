import Sprig.Evaluation.Expression

/-!
# Interactive sessions

A session takes one line after the other. Lines are collected as long as more parentheses are
opened than closed in them; then they are evaluated as one expression, joined by single spaces,
and nothing of them is kept. Where no input is pending, a line that starts with a colon is a
command.
-/

namespace Sprig

/-- The number of opening parentheses less that of closing ones. -/
def Text.openDepth (t : Text) : Int :=
  t.count CodeUnit.openParen - t.count CodeUnit.closeParen

/-- An interactive session: its nesting limit, and the lines of an input that goes on. -/
structure Session where
  limit : Nat
  pending : List Text
  deriving DecidableEq, Repr

namespace Session

/-- A session at its start. -/
def start (limit : Nat) : Session := ⟨limit, []⟩

/-- Whether an input goes on in the next line. -/
def isPending (s : Session) : Bool := !s.pending.isEmpty

/-- What happens after a line. -/
inductive Action where
  /-- The next input is awaited. -/
  | proceed
  /-- The input goes on in the next line. -/
  | more
  /-- The session ends. -/
  | quit
  /-- The terminal is cleared. -/
  | clear
  deriving DecidableEq, Repr

/-- The answer to a line, with the lines for both outputs. -/
structure Reply where
  action : Action
  output : List Text
  errors : List Text
  deriving DecidableEq, Repr

namespace Reply

/-- An answer that shows lines. -/
def ofLines (output : List Text) : Reply := ⟨.proceed, output, []⟩

/-- An answer that shows an error. -/
def ofError (e : Error) : Reply := ⟨.proceed, [], [("  " : Text) ++ e.message]⟩

end Reply

/-! ### Commands -/

/-- The lines of the help text. -/
def help : List Text :=
  ["",
    "REPL Commands:",
    "  :help, :h         Show this help message",
    "  :quit, :q         Exit the REPL",
    "  :tokens <expr>    Show the tokens of an expression",
    "  :depth            Show the nesting limit",
    "  :clear            Clear the screen",
    "",
    "Forms: (add a b), (mult a b), (let name value ... body)",
    "Separate sub-expressions with exactly one space.",
    ""]

/-- A token as a line: its position in a column of three, and its description. -/
def tokenLine (t : Token) : Text :=
  ("  " : Text) ++ (Text.ofNat t.position).leftpad 3 CodeUnit.space ++ ("  " : Text) ++ t.describe

/-- The answer to a request for the tokens of a text. -/
def showTokens (source : Text) : Reply :=
  if source.isEmpty then .ofLines ["Usage: :tokens <expression>"]
  else
    match source.tokens with
    | .ok tokens => .ofLines (tokens.map tokenLine)
    | .error e => .ofError (.malformed e)

/-- The answer to a command. -/
def answerCommand (limit : Nat) (line : Text) : Reply :=
  let name := line.takeWhile fun u => !u.isBlank
  if name = (":help" : Text) ∨ name = (":h" : Text) then .ofLines help
  else if name = (":quit" : Text) ∨ name = (":q" : Text) ∨ name = (":exit" : Text) then
    ⟨.quit, [], []⟩
  else if name = (":clear" : Text) then ⟨.clear, [], []⟩
  else if name = (":depth" : Text) then
    .ofLines [("maxDepth = " : Text) ++ Text.ofNat limit]
  else if name = (":tokens" : Text) then showTokens (Text.trim (line.drop name.length))
  else
    .ofLines
      [("Unknown command: " : Text) ++ name ++ (". Type :help for available commands." : Text)]

/-! ### Lines -/

/-- The pending lines with a further one, unless it is blank. -/
def collect (s : Session) (line : Text) : List Text :=
  if line.isEmpty then s.pending else s.pending ++ [line]

/-- The answer to a complete input. -/
def answer (s : Session) (input : Text) : Reply :=
  if input.isEmpty then .ofLines []
  else
    match evaluate s.limit input with
    | .ok value => .ofLines [("=> " : Text) ++ Text.ofInt value]
    | .error e => .ofError e

/-- Takes a line: the answer to it, and the session after it. -/
def take (s : Session) (line : Text) : Reply × Session :=
  let line := line.trim
  if !s.isPending && line.head? = some CodeUnit.colon then (answerCommand s.limit line, s)
  else
    let pending := s.collect line
    let input : Text := List.intercalate [CodeUnit.space] pending
    if 0 < input.openDepth then (⟨.more, [], []⟩, { s with pending })
    else (s.answer input, { s with pending := [] })

end Session

end Sprig
