import Sprig.Number.Word

/-!
# Operators

The two operators of the language and their names.
-/

namespace Sprig

/-- An operator of two operands. -/
inductive Operator where
  | add
  | mult
  deriving DecidableEq, Repr

namespace Operator

/-- The word that stands for an operator at the head of a form. -/
def name : Operator → Text
  | add => "add"
  | mult => "mult"

/-- The operator of a word. -/
def ofName? (t : Text) : Option Operator :=
  if t = add.name then some add else if t = mult.name then some mult else none

/-- The word that an operator makes of two words. -/
def apply : Operator → Int → Int → Int
  | add => Word.add
  | mult => Word.mul

@[simp] theorem ofName?_name (op : Operator) : ofName? op.name = some op := by
  cases op <;> decide

end Operator

/-- The word at the head of a form that binds names. -/
def letName : Text := "let"

end Sprig
