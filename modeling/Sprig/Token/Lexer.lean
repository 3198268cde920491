import Sprig.Error

/-!
# Lexing

`Text.lexeme?` finds the first token of a text: the longest run of units that a token of its kind
can be made of. A `Lexer` is a text of which some units have been read; `Lexer.next` reads one
token, and reads the end of the input over and over once it is reached. `Text.tokens` reads them
all.
-/

namespace Sprig

/-- Whether a text starts with a digit. -/
def Text.startsWithDigit (t : Text) : Bool := t.head?.any CodeUnit.isDigit

/-- The kind and the units of the token that a text starts with. -/
def Text.lexeme? : Text → Option (TokenKind × Text)
  | [] => some (.endOfFile, [])
  | u :: rest =>
    if u = CodeUnit.space then some (.space, [u])
    else if u = CodeUnit.openParen then some (.openParen, [u])
    else if u = CodeUnit.closeParen then some (.closeParen, [u])
    else if u.isDigit || (u = CodeUnit.minus && Text.startsWithDigit rest) then
      some (.integer, u :: rest.takeWhile CodeUnit.isDigit)
    else if u.isLetter then some (.identifier, u :: rest.takeWhile CodeUnit.isAlphanumeric)
    else none

/-- A text that is being read: the units left, and the number of those before them. -/
structure Lexer where
  position : Nat
  rest : Text
  deriving DecidableEq, Repr

namespace Lexer

/-- A text of which nothing has been read. -/
def ofText (t : Text) : Lexer := ⟨0, t⟩

/-- What is left after the next `n` units. -/
def skip (l : Lexer) (n : Nat) : Lexer := ⟨l.position + n, l.rest.drop n⟩

/-- Reads one token. -/
def next (l : Lexer) : Except SyntaxError (Token × Lexer) :=
  match l.rest.lexeme? with
  | some (kind, text) => .ok (⟨kind, text, l.position⟩, l.skip text.length)
  | none => .error (.unexpectedUnit (l.rest.headD 0) l.position)

/-- Reads at most `count` tokens before the end of the input, and the end. -/
def readAll : (count : Nat) → Lexer → Except SyntaxError (List Token)
  | 0, l => .ok [⟨.endOfFile, [], l.position⟩]
  | count + 1, l => do
    let (token, l) ← l.next
    if token.kind = .endOfFile then return [token]
    return token :: (← readAll count l)

end Lexer

/-- All tokens of a text, the end of the input last. -/
def Text.tokens (t : Text) : Except SyntaxError (List Token) :=
  (Lexer.ofText t).readAll t.length

end Sprig
