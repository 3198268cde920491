import Sprig.Proofs.Evaluation.Simulation
import Sprig.Proofs.Expr.Reading
import Sprig.Proofs.Reader.Run

/-!
# The value of a text

Evaluating the text of an expression gives what `Expr.value` gives on the tree, where nothing is
read, nothing is held back and bindings never change: the value if there is one, and else the first
failure from left to right.
-/

namespace Sprig

namespace Reader

variable {limit : Nat}

/-- A reader that waits for a whole expression takes its text to the value. -/
lemma run_text_nil {e : Expr} (he : e.isWellFormed) (p : Nat) :
    run limit ⟨.expression [], []⟩ ⟨p, e.text⟩ = e.value limit limit [] p := by
  have hrun := e.run_text limit [] [] p [] he rfl ⟨_, rfl⟩
  rw [List.append_nil] at hrun
  rw [hrun, List.length_nil, Nat.sub_zero]
  cases e.value limit limit [] p with
  | error c => rfl
  | ok value => exact run_value_nil limit value _

/-- An expression starts with no space, so a reader at its start takes it as one that waits for an
expression does. -/
lemma run_start_text {e : Expr} (he : e.isWellFormed) (p : Nat) :
    start.run limit ⟨p, e.text⟩ = run limit ⟨.expression [], []⟩ ⟨p, e.text⟩ := by
  have hapart : Text.isApart [] := rfl
  have hnext := e.next_text_append he p hapart
  rw [List.append_nil] at hnext
  refine run_congr hnext ?_
  have hspace : e.firstLexeme.1 ≠ .space := by cases e <;> simp
  simp [start, feed, hspace]

end Reader

lemma evaluate_text_eq_value (limit : Nat) {e : Expr} (he : e.isWellFormed) :
    evaluate limit e.text = e.value limit limit [] 0 := by
  rw [evaluate_eq_run, Lexer.ofText, Reader.run_start_text he, Reader.run_text_nil he]

lemma evaluate_space_text_eq_value (limit : Nat) {e : Expr} (he : e.isWellFormed) :
    evaluate limit (CodeUnit.space :: e.text) = e.value limit limit [] 1 := by
  have hfeed : Reader.start.feed limit ⟨.space, [CodeUnit.space], 0⟩ =
      .ok ⟨.expression [], []⟩ := rfl
  rw [evaluate_eq_run, Lexer.ofText, Reader.run_space hfeed, Reader.run_text_nil he]

/-- Evaluating the text of an expression, after a space or not, gives the value of the expression
or its first failure; there is one expression to a text. -/
theorem evaluate_text (limit : Nat) {e : Expr} (he : e.isWellFormed) :
    evaluate limit e.text = e.value limit limit [] 0 ∧
      evaluate limit (CodeUnit.space :: e.text) = e.value limit limit [] 1 ∧
      ∀ e' : Expr, e'.isWellFormed → e'.text = e.text → e' = e := by
  refine ⟨evaluate_text_eq_value limit he, evaluate_space_text_eq_value limit he, ?_⟩
  intro e' he' htext
  exact (e'.text_append_inj e [] [] he' he rfl rfl (by rw [htext])).1

/-- A name may be spelled like an operator. The product wraps around before it is added. -/
theorem evaluate_text_let_add_mult :
    (Expr.letForm (.bind "add" (.integer "65537") (.body (.operation .add (.name "add")
      (.operation .mult (.name "add") (.name "add")))))).isWellFormed ∧
    65537 * 65537 = (2 ^ 32 + 131073 : Int) ∧
    evaluate 4 "(let add 65537 (add add (mult add add)))" = .ok (65537 + 131073) := by
  refine ⟨by decide, by decide, ?_⟩
  exact (evaluate_text 4 (e := .letForm (.bind "add" (.integer "65537") (.body (.operation .add
    (.name "add") (.operation .mult (.name "add") (.name "add")))))) (by decide)).1.trans
      (by decide +kernel)

end Sprig
