import Sprig.Proofs.Evaluation.Simulation
import Sprig.Proofs.Reader.Grammar

/-!
# What has a value

Only the text of an expression has a value, with one space before it or none. Its integers are
words, and it is nested no deeper than the limit.
-/

namespace Sprig

variable {limit : Nat} {source : Text} {value : Int}

/-- The tokens of a text with a value: perhaps a space, and those of an expression. -/
lemma exists_tokens_of_evaluate (h : evaluate limit source = .ok value) :
    ∃ lead body : List Token, source = Token.texts lead ++ Token.texts body ∧
      (Token.texts lead = [] ∨ Token.texts lead = [CodeUnit.space]) ∧ Token.AreRead body [] ∧
      Reader.feedAll limit ⟨.expression [], []⟩ body = .ok ⟨.value (.ok value), []⟩ := by
  rw [evaluate_eq_run] at h
  obtain ⟨ts, hrest, hread, hfeed⟩ := Reader.exists_tokens_of_run_eq_ok h
  have hne : ts ≠ [] := by
    rintro rfl
    cases hfeed
  obtain ⟨lead, body, rfl, hlead, hbody, hvalue⟩ :=
    Reader.exists_feedAll_expression hfeed hne hread
  exact ⟨lead, body, by simpa [Lexer.ofText] using hrest, hlead, hbody, hvalue⟩

lemma exists_fits_of_evaluate (h : evaluate limit source = .ok value) :
    ∃ e : Expr, e.Fits limit 0 ∧ (source = e.text ∨ source = CodeUnit.space :: e.text) := by
  obtain ⟨lead, body, rfl, hlead, hread, hbody⟩ := exists_tokens_of_evaluate h
  have hspells := Reader.spells_of_feedAll hread.accepts hbody
  generalize Token.texts body = text at hspells
  cases hspells with
  | @value _ _ text e h he =>
    cases h
    refine ⟨e, he, ?_⟩
    rcases hlead with hlead | hlead
    · exact Or.inl (by simp [hlead])
    · exact Or.inr (by simp [hlead])

/-- What has a value is an expression of the grammar, with at most one space before it. -/
theorem exists_text_of_evaluate (h : evaluate limit source = .ok value) :
    ∃ e : Expr, e.isWellFormed ∧ e.isInRange ∧ e.nesting ≤ limit ∧
      (source = e.text ∨ source = CodeUnit.space :: e.text) := by
  obtain ⟨e, he, hsource⟩ := exists_fits_of_evaluate h
  exact ⟨e, he.isWellFormed, he.isInRange, he.nesting, hsource⟩

/-- A sum after a space. -/
theorem exists_text_of_evaluate_add :
    evaluate 2 " (add 1 2)" = .ok 3 ∧
    ∃ e : Expr, e.isWellFormed ∧ e.isInRange ∧ e.nesting ≤ 2 ∧
      (" (add 1 2)" = e.text ∨ " (add 1 2)" = CodeUnit.space :: e.text) := by
  have hvalue : evaluate 2 " (add 1 2)" = .ok 3 := by decide +kernel
  exact ⟨hvalue, exists_text_of_evaluate hvalue⟩

end Sprig
