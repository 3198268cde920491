import Sprig.Text.Basic

/-!
# Tokens

The tokens of an expression. A space is a token of its own, since the grammar asks for exactly
one between two neighbouring expressions.
-/

namespace Sprig

/-- The kinds of tokens. -/
inductive TokenKind where
  | openParen
  | closeParen
  | identifier
  | integer
  | space
  | endOfFile
  deriving DecidableEq, Repr

namespace TokenKind

/-- The name of a kind. -/
def name : TokenKind → Text
  | openParen => "OpenParen"
  | closeParen => "CloseParen"
  | identifier => "Identifier"
  | integer => "Integer"
  | space => "Space"
  | endOfFile => "EndOfFile"

/-- All kinds. -/
def all : List TokenKind := [openParen, closeParen, identifier, integer, space, endOfFile]

/-- The kind of a name. -/
def ofName? (t : Text) : Option TokenKind := all.find? fun kind => kind.name == t

end TokenKind

/-- A piece of a source text: its kind, its units, and the number of units before it. The end of
the input is a token without units. -/
structure Token where
  kind : TokenKind
  text : Text
  position : Nat
  deriving DecidableEq, Repr

namespace Token

/-- A token as messages show it. -/
def describe (t : Token) : Text :=
  match t.kind with
  | .identifier | .integer => t.kind.name ++ [CodeUnit.space] ++ t.text.quoted
  | .endOfFile => "end of input"
  | kind => kind.name

end Token

end Sprig
