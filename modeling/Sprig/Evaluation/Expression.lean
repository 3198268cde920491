import Sprig.Evaluation.Basic

/-!
# Evaluation

An expression is evaluated while it is read, with no tree in between:

    program    = [space] expression
    expression = integer | identifier
               | "(" operator space expression space expression ")"
               | "(" "let" space {identifier space expression space} expression ")"

A form is evaluated the moment its last token has been read, so of two errors the one further to
the left is found. An identifier directly before a closing parenthesis is the body of its `let`,
not a name to be bound.

The functions for the forms take the evaluator of their parts as an argument. `expression` closes
the circle: each level of nesting hands the next one a smaller allowance, and an expression that
has none left fails before its first token is looked at.
-/

namespace Sprig

namespace Evaluation

/-! ### Forms -/

section Forms

variable (sub : Nat → EvalM Int)

/-- Moves past the parenthesis that closes an operator's form. A space that starts a third operand
is reported as that operand. -/
def closeOperator (op : Operator) : EvalM Unit := do
  let token ← current
  match token.kind with
  | .closeParen => advance
  | .space =>
    let next ← peek
    let found := if next.kind = .closeParen ∨ next.kind = .endOfFile then token else next
    fail (.missing .closeParen (.afterSecondOperand op) found)
  | _ => fail (.missing .closeParen (.afterSecondOperand op) token)

/-- The rest of an operator's form after the operator. -/
def operatorForm (op : Operator) (scope : Nat) : EvalM Int := do
  require .space (.afterOperator op)
  let left ← sub scope
  require .space (.betweenOperands op)
  let right ← sub scope
  closeOperator op
  return op.apply left right

/-- One binding, its name being the current token. The value is evaluated in the scope that is
being built, and the space after it may be missing before a closing parenthesis. -/
def binding (scope : Nat) (name : Text) : EvalM Unit := do
  advance
  let separator ← current
  if separator.kind = .space then
    advance
    let value ← sub scope
    define scope name value
    let next ← current
    if next.kind = .closeParen then return else require .space (.afterValue name)
  else fail (.noValue name separator)

/-- The bindings of a `let`, at most `count` of them. -/
def bindings (scope : Nat) : (count : Nat) → EvalM Unit
  | 0 => return
  | count + 1 => do
    let token ← current
    if token.kind = .identifier then
      let next ← peek
      if next.kind = .closeParen then return
      else
        binding sub scope token.text
        bindings scope count
    else return

/-- The rest of a `let` form after its head. Each binding takes at least one unit of the text, so
the units left are enough of an allowance for all of them. -/
def letForm (parent : Nat) : EvalM Int := do
  let scope ← newScope parent
  require .space .afterLet
  bindings sub scope (← get).tokens.size
  let token ← current
  if token.kind = .closeParen then fail (.noBody token)
  else
    let value ← sub scope
    require .closeParen .endOfLet
    return value

/-- A form after its opening parenthesis. -/
def form (scope : Nat) : EvalM Int := do
  let head ← current
  if head.kind = .identifier then
    advance
    match Operator.ofName? head.text with
    | some op => operatorForm sub op scope
    | none =>
      if head.text = letName then letForm sub scope else throw (.unknownOperator head.text)
  else fail (.noHead head)

/-- An expression whose parts are evaluated by `sub`. -/
def expressionWith (scope : Nat) : EvalM Int := do
  let token ← current
  match token.kind with
  | .integer =>
    match Word.ofText? token.text with
    | some value => advance; return value
    | none => fail (.literalOutOfRange token)
  | .identifier => advance; lookup scope token.text
  | .openParen => advance; form sub scope
  | .endOfFile => fail (.unexpectedEnd token)
  | .closeParen | .space => fail (.unexpectedToken token)

end Forms

/-! ### Expressions -/

/-- An expression in a scope, nested at most `allowance` deep. -/
def expression (limit : Nat) : (allowance : Nat) → (scope : Nat) → EvalM Int
  | 0, _ => throw (.tooDeep limit)
  | allowance + 1, scope => expressionWith (expression limit allowance) scope

/-- Whether an integer is small enough, below `2 ^ 53`, to be a number without rounding. -/
def isExact (n : Int) : Bool := n.natAbs < 0x20000000000000

/-- A whole text: one space may come first, and nothing may follow the expression. -/
def program (limit : Nat) : EvalM Int := do
  let first ← current
  if first.kind = .space then advance
  let value ← expression limit limit 0
  let token ← current
  if token.kind = .endOfFile then
    if isExact value then return value
    else throw (.evaluation (("non-integer final result: " : Text) ++ Text.ofInt value))
  else fail (.trailing token)

end Evaluation

/-- The value of an expression that is nested at most `limit` deep, or the first error. -/
def evaluate (limit : Nat) (source : Text) : Except Error Int :=
  match TokenCursor.ofText source with
  | .error e => .error (.malformed e)
  | .ok tokens =>
    match (Evaluation.program limit).run ⟨tokens, .root⟩ with
    | .ok value _ => .ok value
    | .error e _ => .error e

end Sprig
