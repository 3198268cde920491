import Sprig.Operator
import Sprig.Token.Lexeme

/-!
# Expressions

Expressions as trees, and the one text of each. The evaluator works on texts and builds no tree;
trees are what its results are described by.

What stands between the head of a `let` and its closing parenthesis is a tree of its own kind: a
body, or a name with its value and what comes after them.
-/

namespace Sprig

mutual

/-- An expression. -/
inductive Expr where
  | integer (lexeme : Text)
  | name (name : Text)
  | operation (op : Operator) (left right : Expr)
  | letForm (inside : LetTail)
  deriving DecidableEq, Repr

/-- What stands between the head of a `let` and its closing parenthesis. -/
inductive LetTail where
  | body (e : Expr)
  | bind (name : Text) (value : Expr) (rest : LetTail)
  deriving DecidableEq, Repr

end

/-! ### Texts -/

mutual

/-- The text of an expression. -/
def Expr.text : Expr → Text
  | .integer lexeme => lexeme
  | .name name => name
  | .operation op left right =>
    [CodeUnit.openParen] ++ op.name ++ [CodeUnit.space] ++ left.text ++ [CodeUnit.space] ++
      right.text ++ [CodeUnit.closeParen]
  | .letForm inside =>
    [CodeUnit.openParen] ++ letName ++ [CodeUnit.space] ++ inside.text ++ [CodeUnit.closeParen]

/-- The text between the head of a `let` and its closing parenthesis. -/
def LetTail.text : LetTail → Text
  | .body e => e.text
  | .bind name value rest =>
    name ++ [CodeUnit.space] ++ value.text ++ [CodeUnit.space] ++ rest.text

end

/-! ### Lexemes and nesting -/

mutual

/-- Whether the integers and names of an expression are lexemes. -/
def Expr.isWellFormed : Expr → Bool
  | .integer lexeme => lexeme.isInteger
  | .name name => name.isIdentifier
  | .operation _ left right => left.isWellFormed && right.isWellFormed
  | .letForm inside => inside.isWellFormed

/-- Whether the integers and names inside a `let` are lexemes. -/
def LetTail.isWellFormed : LetTail → Bool
  | .body e => e.isWellFormed
  | .bind name value rest => name.isIdentifier && value.isWellFormed && rest.isWellFormed

end

mutual

/-- How deep forms are nested: one for an integer or a name, and one more than the deepest part
for a form. -/
def Expr.nesting : Expr → Nat
  | .integer _ | .name _ => 1
  | .operation _ left right => 1 + max left.nesting right.nesting
  | .letForm inside => 1 + inside.nesting

/-- The nesting of the deepest part inside a `let`. -/
def LetTail.nesting : LetTail → Nat
  | .body e => e.nesting
  | .bind _ value rest => max value.nesting rest.nesting

end

end Sprig
