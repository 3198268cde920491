import Sprig.Proofs.Expr.Evaluation

/-!
# Values and nesting

The limit of nesting decides whether an expression has a value, and the place of an expression what
is said about it if it has none. The value itself depends on neither: an expression that has one has
it wherever its nesting is allowed.
-/

namespace Sprig

variable {limit limit' : Nat}

/-- Nothing has a value where no nesting is allowed. -/
lemma Expr.allowance_ne_zero {e : Expr} {allowance : Nat} {env : Bindings} {p : Nat} {n : Int}
    (h : e.value limit allowance env p = .ok n) : allowance ≠ 0 := by
  rintro rfl
  rw [Expr.value_zero] at h
  cases h

lemma Expr.nesting_pos (e : Expr) : 0 < e.nesting := by
  cases e <;> simp [Expr.nesting]

mutual

/-- An expression that has a value has it wherever its nesting is allowed. -/
theorem Expr.value_of_nesting_le (e : Expr) {allowance allowance' : Nat} {env : Bindings}
    {p p' : Nat} {n : Int} (h : e.value limit allowance env p = .ok n)
    (hnesting : e.nesting ≤ allowance') : e.value limit' allowance' env p' = .ok n := by
  have ha : allowance ≠ 0 := Expr.allowance_ne_zero h
  have ha' : allowance' ≠ 0 := by
    have hpos := e.nesting_pos
    omega
  match e with
  | .integer w =>
    rw [Expr.value_integer limit env p ha] at h
    rw [Expr.value_integer limit' env p' ha']
    split_ifs at h ⊢ with hword
    exact h
  | .name w =>
    rw [Expr.value_name limit env p ha] at h
    rwa [Expr.value_name limit' env p' ha']
  | .operation op left right =>
    obtain ⟨hleft, hright⟩ : left.nesting ≤ allowance' - 1 ∧ right.nesting ≤ allowance' - 1 := by
      simp only [Expr.nesting] at hnesting
      omega
    rw [Expr.value_operation limit env p ha] at h
    rw [Expr.value_operation limit' env p' ha']
    cases hm : left.value limit (allowance - 1) env (p + op.name.length + 2) with
    | error e => simp [hm, Except.bind] at h
    | ok m =>
      cases hk : right.value limit (allowance - 1) env
          (p + op.name.length + 2 + left.text.length + 1) with
      | error e => simp [hm, hk, Except.bind] at h
      | ok k =>
        rw [left.value_of_nesting_le hm hleft, Except.bind, right.value_of_nesting_le hk hright]
        simpa [hm, hk, Except.bind] using h
  | .letForm inside =>
    have hinside : inside.nesting ≤ allowance' - 1 := by
      simp only [Expr.nesting] at hnesting
      omega
    rw [Expr.value_letForm limit env p ha] at h
    rw [Expr.value_letForm limit' env p' ha']
    exact inside.value_of_nesting_le h hinside

/-- The same for what stands inside a `let`. -/
theorem LetTail.value_of_nesting_le (inside : LetTail) {allowance allowance' : Nat}
    {env : Bindings} {p p' : Nat} {n : Int} (h : inside.value limit allowance env p = .ok n)
    (hnesting : inside.nesting ≤ allowance') : inside.value limit' allowance' env p' = .ok n := by
  match inside with
  | .body e =>
    rw [LetTail.value_body] at h ⊢
    exact e.value_of_nesting_le h hnesting
  | .bind name value rest =>
    obtain ⟨hvalue, hrest⟩ : value.nesting ≤ allowance' ∧ rest.nesting ≤ allowance' := by
      simp only [LetTail.nesting] at hnesting
      omega
    rw [LetTail.value_bind] at h ⊢
    cases hm : value.value limit allowance env (p + name.length + 1) with
    | error e => simp [hm, Except.bind] at h
    | ok m =>
      rw [hm] at h
      rw [value.value_of_nesting_le hm hvalue]
      exact rest.value_of_nesting_le h hrest

end

/-- An expression that has a value on its own has it at every place that allows its nesting. -/
lemma Expr.value_of_evaluate {e : Expr} {allowance p : Nat} {n : Int} (he : e.isWellFormed)
    (h : evaluate limit e.text = .ok n) (hnesting : e.nesting ≤ allowance) :
    e.value limit allowance [] p = .ok n := by
  rw [evaluate_text_eq_value limit he] at h
  exact e.value_of_nesting_le h hnesting

end Sprig
