import Sprig.Evaluation.Expression

/-!
# The demonstration

A fixed list of expressions, some of them faulty, each shown with its value or its error.
-/

namespace Sprig.Demonstration

/-- The expressions that are shown. -/
def cases : List Text :=
  ["(let x 2 y 3 x (mult x y) (add x y))",
    "(let x 2 y 3 (add x (let x 4 (add x y))))",
    "(add (mult 2 3) (let a 5 (add a 1)))",
    "(let x 3 (let x 2 x))",
    "(let x 3 x)",
    "(add 10 20)",
    "42",
    "(let x 10 y (add x 5) (mult x y))",
    "(add x 5)",
    "()",
    "(mult 1 2 3)",
    "(let x 10 y)",
    "(+ 1 2)"]

/-- An outcome as it is shown. -/
def describe : Except Error Int → Text
  | .ok value => ("Result: " : Text) ++ Text.ofInt value
  | .error e => ("Error: " : Text) ++ e.message

/-- Whether an expression has a value, and the lines that show it. -/
def showCase (limit : Nat) (input : Text) : Bool × List Text :=
  let outcome := evaluate limit input
  (outcome.isOk, [[], ("Evaluating: \"" : Text) ++ input ++ ("\"" : Text), describe outcome])

/-- The number of faulty expressions, and the lines that show all of them. -/
def showAll (limit : Nat) : Nat × List Text :=
  let shown := cases.map (showCase limit)
  (shown.countP fun c => !c.1, ("--- Sprig demo ---" : Text) :: shown.flatMap Prod.snd)

end Sprig.Demonstration
