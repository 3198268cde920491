import Sprig.Token.Basic

/-!
# Lexemes

The texts that the tokens of each kind are made of, as predicates, and the integer that an integer
lexeme writes. They say what a lexeme is and not how one is found in a longer text.
-/

namespace Sprig

namespace Text

/-- One or more digits. -/
def isDigits (t : Text) : Bool := !t.isEmpty && t.all CodeUnit.isDigit

/-- One or more digits, with a minus sign before them or not. -/
def isInteger : Text → Bool
  | [] => false
  | u :: rest => isDigits (if u = CodeUnit.minus then rest else u :: rest)

/-- A letter, and any letters and digits after it. -/
def isIdentifier : Text → Bool
  | [] => false
  | u :: rest => u.isLetter && rest.all CodeUnit.isAlphanumeric

/-- The integer that an integer lexeme writes, of any size. -/
def integerValue : Text → Int
  | [] => 0
  | u :: rest => if u = CodeUnit.minus then -(toNat rest : Int) else toNat (u :: rest)

end Text

/-- Whether a text can be a token of a kind. -/
def TokenKind.accepts : TokenKind → Text → Bool
  | openParen, t => t = [CodeUnit.openParen]
  | closeParen, t => t = [CodeUnit.closeParen]
  | identifier, t => t.isIdentifier
  | integer, t => t.isInteger
  | space, t => t = [CodeUnit.space]
  | endOfFile, t => t = []

end Sprig
