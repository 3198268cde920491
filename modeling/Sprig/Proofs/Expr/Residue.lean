import Mathlib.Data.Int.ModEq
import Sprig.Proofs.Evaluation.Soundness
import Sprig.Proofs.Expr.Evaluation

/-!
# Values as residues

Wrapping at every step is wrapping once at the end: the value of an expression is the word that is
congruent to its exact value, in which nothing is wrapped and names are bound to exact values too.
-/

namespace Sprig

namespace Word

lemma wrap_modEq (n : Int) : wrap n ≡ n [ZMOD 2 ^ 32] := Int.bmod_emod

end Word

lemma Operator.apply_wrap (op : Operator) (m n : Int) :
    op.apply (Word.wrap m) (Word.wrap n) = Word.wrap (op.exact m n) := by
  cases op with
  | add => simp [apply, exact, Word.add, Word.wrap]
  | mult => simp [apply, exact, Word.mul, Word.wrap]

namespace Bindings

/-- The same names, bound to the words of their values. -/
def wrapped (env : Bindings) : Bindings := env.map fun b => (b.1, Word.wrap b.2)

lemma lookup_wrapped (env : Bindings) (name : Text) :
    env.wrapped.lookup name = (env.lookup name).map Word.wrap := by
  induction env with
  | nil => rfl
  | cons b env ih =>
    obtain ⟨bound, n⟩ := b
    simp only [wrapped, List.map_cons] at ih ⊢
    rw [List.lookup_cons, List.lookup_cons]
    split
    · rfl
    · exact ih

end Bindings

/-! ### Trees -/

variable {limit : Nat}

mutual

/-- An expression with a value has an exact one, of which it is the word. -/
theorem Expr.exists_exactValue (e : Expr) (allowance : Nat) (env : Bindings) (p : Nat)
    {value : Int} (h : e.value limit allowance env.wrapped p = .ok value) :
    ∃ n, e.exactValue env = some n ∧ value = Word.wrap n := by
  by_cases ha : allowance = 0
  · rw [ha, Expr.value_zero] at h
    cases h
  match e with
  | .integer w =>
    rw [Expr.value_integer limit _ p ha] at h
    split_ifs at h with hword
    cases h
    exact ⟨w.integerValue, by simp [Expr.exactValue], (Word.wrap_of_isWord hword).symm⟩
  | .name w =>
    rw [Expr.value_name limit _ p ha, Bindings.find, Bindings.lookup_wrapped] at h
    cases hlookup : env.lookup w with
    | none => simp [hlookup] at h
    | some n =>
      simp only [hlookup, Option.map_some, Except.ok.injEq] at h
      exact ⟨n, by simpa [Expr.exactValue] using hlookup, h.symm⟩
  | .operation op left right =>
    rw [Expr.value_operation limit _ p ha] at h
    cases hleft : left.value limit (allowance - 1) env.wrapped (p + op.name.length + 2) with
    | error c => simp [hleft, Except.bind] at h
    | ok a =>
      simp only [hleft, Except.bind] at h
      split at h
      · cases h
      · next b hright =>
        cases h
        obtain ⟨m, hm, rfl⟩ := left.exists_exactValue _ env _ hleft
        obtain ⟨n, hn, rfl⟩ := right.exists_exactValue _ env _ hright
        exact ⟨op.exact m n, by simp [Expr.exactValue, hm, hn], op.apply_wrap m n⟩
  | .letForm inside =>
    rw [Expr.value_letForm limit _ p ha] at h
    obtain ⟨n, hn, hvalue⟩ := inside.exists_exactValue _ env _ h
    exact ⟨n, by simpa [Expr.exactValue] using hn, hvalue⟩

/-- The same for what stands inside a `let`, whose values are bound to their names exactly. -/
theorem LetTail.exists_exactValue (inside : LetTail) (allowance : Nat) (env : Bindings) (p : Nat)
    {value : Int} (h : inside.value limit allowance env.wrapped p = .ok value) :
    ∃ n, inside.exactValue env = some n ∧ value = Word.wrap n := by
  match inside with
  | .body e =>
    rw [LetTail.value_body] at h
    obtain ⟨n, hn, hvalue⟩ := e.exists_exactValue _ env _ h
    exact ⟨n, by simpa [LetTail.exactValue] using hn, hvalue⟩
  | .bind name bound tail =>
    rw [LetTail.value_bind] at h
    cases hbound : bound.value limit allowance env.wrapped (p + name.length + 1) with
    | error c => simp [hbound, Except.bind] at h
    | ok a =>
      simp only [hbound, Except.bind] at h
      obtain ⟨m, hm, rfl⟩ := bound.exists_exactValue _ env _ hbound
      obtain ⟨n, hn, hvalue⟩ := tail.exists_exactValue _ ((name, m) :: env) _ h
      exact ⟨n, by simpa [LetTail.exactValue, hm] using hn, hvalue⟩

end

/-! ### Texts -/

variable {source : Text} {value : Int}

/-- A text with a value is that of an expression, with a space before it or not, and the value is
the word that is congruent to the exact value of the expression. -/
theorem exactValue_of_evaluate (h : evaluate limit source = .ok value) :
    (∃ e : Expr, e.isWellFormed ∧ (source = e.text ∨ source = CodeUnit.space :: e.text)) ∧
    ∀ e : Expr, e.isWellFormed → (source = e.text ∨ source = CodeUnit.space :: e.text) →
      ∃ n, e.exactValue [] = some n ∧ IsWord value ∧ value ≡ n [ZMOD 2 ^ 32] := by
  constructor
  · obtain ⟨e, he, hsource⟩ := exists_fits_of_evaluate h
    exact ⟨e, he.isWellFormed, hsource⟩
  · intro e he hsource
    have hvalue : ∃ p, e.value limit limit (Bindings.wrapped []) p = .ok value := by
      rcases hsource with rfl | rfl
      · exact ⟨0, by rw [← h, evaluate_text_eq_value limit he]; rfl⟩
      · exact ⟨1, by rw [← h, evaluate_space_text_eq_value limit he]; rfl⟩
    obtain ⟨p, hvalue⟩ := hvalue
    obtain ⟨n, hn, rfl⟩ := e.exists_exactValue limit [] p hvalue
    exact ⟨n, hn, Word.isWord_wrap n, Word.wrap_modEq n⟩

/-- The square of a sum that is no word: the name is bound to a negative word, the exact value has
nineteen digits. -/
theorem exactValue_of_evaluate_square :
    evaluate 3 "(let x (add 2147483647 2) (mult x x))" = .ok 1 ∧
    ∃ e : Expr, e.text = "(let x (add 2147483647 2) (mult x x))" ∧
      e.exactValue [] = some 4611686022722355201 ∧ 1 ≡ 4611686022722355201 [ZMOD 2 ^ 32] := by
  have hvalue : evaluate 3 "(let x (add 2147483647 2) (mult x x))" = .ok 1 := by decide +kernel
  obtain ⟨e, he, htext, hexact⟩ : ∃ e : Expr, e.isWellFormed ∧
      e.text = "(let x (add 2147483647 2) (mult x x))" ∧
      e.exactValue [] = some 4611686022722355201 :=
    ⟨.letForm (.bind "x" (.operation .add (.integer "2147483647") (.integer "2"))
      (.body (.operation .mult (.name "x") (.name "x")))), by decide, by decide, by decide +kernel⟩
  obtain ⟨n, hn, -, hcongruent⟩ := (exactValue_of_evaluate hvalue).2 e he (Or.inl htext.symm)
  obtain rfl : 4611686022722355201 = n := Option.some.inj (hexact.symm.trans hn)
  exact ⟨hvalue, e, htext, hexact, hcongruent⟩

end Sprig
