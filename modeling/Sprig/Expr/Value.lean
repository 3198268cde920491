import Sprig.Error
import Sprig.Expr.Basic

/-!
# The values of expressions

Two evaluators on trees. `Expr.value` says what the evaluation of a text has to give: names are
bound in an environment that is handed down and never changed, arithmetic wraps, parts are visited
from left to right, and the first failure is the result. `Expr.exactValue` computes with integers
of any size.
-/

namespace Sprig

/-- The bindings that hold at a place, the innermost first. -/
abbrev Bindings := List (Text × Int)

mutual

/-- The value of an expression that starts at a position and is nested at most `allowance` deep,
the limit as a whole being `limit`. -/
def Expr.value (limit : Nat) (allowance : Nat) (env : Bindings) (position : Nat) :
    Expr → Except Error Int
  | .integer lexeme =>
    if allowance = 0 then .error (.tooDeep limit)
    else
      let n := lexeme.integerValue
      if Word.least ≤ n ∧ n ≤ Word.greatest then .ok n
      else .error (.malformed (.literalOutOfRange ⟨.integer, lexeme, position⟩))
  | .name name =>
    if allowance = 0 then .error (.tooDeep limit)
    else
      match env.lookup name with
      | some n => .ok n
      | none => .error (.unboundName name)
  | .operation op left right =>
    if allowance = 0 then .error (.tooDeep limit)
    else do
      let start := position + op.name.length + 2
      let m ← left.value limit (allowance - 1) env start
      let n ← right.value limit (allowance - 1) env (start + left.text.length + 1)
      return op.apply m n
  | .letForm inside =>
    if allowance = 0 then .error (.tooDeep limit)
    else inside.value limit (allowance - 1) env (position + letName.length + 2)

/-- The value of the body of a `let`, each binding being made in turn. -/
def LetTail.value (limit : Nat) (allowance : Nat) (env : Bindings) (position : Nat) :
    LetTail → Except Error Int
  | .body e => e.value limit allowance env position
  | .bind name value rest => do
    let start := position + name.length + 1
    let n ← value.value limit allowance env start
    rest.value limit allowance ((name, n) :: env) (start + value.text.length + 1)

end

/-- An operation on integers of any size. -/
def Operator.exact : Operator → Int → Int → Int
  | .add => (· + ·)
  | .mult => (· * ·)

mutual

/-- The value of an expression in integers of any size, if all its names are bound. -/
def Expr.exactValue (env : Bindings) : Expr → Option Int
  | .integer lexeme => some lexeme.integerValue
  | .name name => env.lookup name
  | .operation op left right => do
    let m ← left.exactValue env
    let n ← right.exactValue env
    return op.exact m n
  | .letForm inside => inside.exactValue env

/-- The value of the body of a `let` in integers of any size. -/
def LetTail.exactValue (env : Bindings) : LetTail → Option Int
  | .body e => e.exactValue env
  | .bind name value rest => do
    let n ← value.exactValue env
    rest.exactValue ((name, n) :: env)

end

end Sprig
