import Sprig.Token.Lexer

/-!
# Token cursors

A cursor over the tokens of a text: the current token, and the one after it once it has been
looked at. A token is read from the text only when it is asked for, so a unit that starts no token
is reported only if the cursor gets there. Where an operation fails there is no new cursor, and
the old one goes on unchanged.
-/

namespace Sprig

/-- A cursor over the tokens of a text. -/
structure TokenCursor where
  lexer : Lexer
  current : Token
  held : Option Token
  deriving DecidableEq, Repr

namespace TokenCursor

/-- The cursor at the first token of a text. -/
def ofText (t : Text) : Except SyntaxError TokenCursor := do
  let (token, lexer) ← (Lexer.ofText t).next
  return ⟨lexer, token, none⟩

/-- Looks at the token after the current one, which is held until the cursor advances. -/
def peek (s : TokenCursor) : Except SyntaxError (Token × TokenCursor) :=
  match s.held with
  | some token => .ok (token, s)
  | none => do
    let (token, lexer) ← s.lexer.next
    return (token, { s with lexer, held := some token })

/-- Moves to the token after the current one. -/
def advance (s : TokenCursor) : Except SyntaxError TokenCursor :=
  match s.held with
  | some token => .ok { s with current := token, held := none }
  | none => do
    let (token, lexer) ← s.lexer.next
    return { s with lexer, current := token }

/-- The number of units from the current token on. -/
def size (s : TokenCursor) : Nat :=
  s.current.text.length + (s.held.elim 0 fun token => token.text.length) + s.lexer.rest.length

end TokenCursor

end Sprig
