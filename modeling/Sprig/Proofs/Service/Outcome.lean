import Sprig.Proofs.Evaluation.Range
import Sprig.Proofs.Options.Effective
import Sprig.Service.Tool

/-!
# Outcomes of evaluations

An evaluation ends in a word, or in one of four errors: a syntax error, a name without a value, an
unknown word at the head of a form, or too deep a nesting. The tool that evaluates accepts every
limit up to the greatest one. With such a limit its answer is that of an evaluation, so it never
tells of an error of an unknown kind.
-/

namespace Sprig

variable {limit : Nat} {source : Text} {maxDepth : Option Json}

/-! ### Values and errors -/

/-- The scopes at the end of an evaluation, also of one that fails. -/
def finalScopes (limit : Nat) (source : Text) : ScopeTree :=
  match TokenCursor.ofText source with
  | .error _ => .root
  | .ok tokens =>
    match (Evaluation.program limit).run ⟨tokens, .root⟩ with
    | .ok _ s => s.scopes
    | .error _ s => s.scopes

/-- At its end an evaluation has given a word or failed in one of the known ways, and has bound only
words. -/
lemma evaluate_keeps (limit : Nat) (source : Text) :
    ((∃ value, evaluate limit source = .ok value ∧ IsWord value) ∨
      ∃ e, evaluate limit source = .error e ∧ e.IsOutcome) ∧
    (finalScopes limit source).BindsWords := by
  rw [evaluate, finalScopes]
  cases TokenCursor.ofText source with
  | error c => exact ⟨Or.inr ⟨_, rfl, .malformed c⟩, ScopeTree.bindsWords_root⟩
  | ok tokens =>
    have hkeeps := Evaluation.program_keeps limit ⟨tokens, .root⟩ ScopeTree.bindsWords_root
    dsimp only
    rw [EStateM.run]
    cases hrun : Evaluation.program limit ⟨tokens, .root⟩ with
    | ok value s =>
      rw [hrun] at hkeeps
      exact ⟨Or.inl ⟨value, rfl, hkeeps.1⟩, hkeeps.2⟩
    | error e s =>
      rw [hrun] at hkeeps
      exact ⟨Or.inr ⟨e, rfl, hkeeps.1⟩, hkeeps.2⟩

lemma kind_ne_of_evaluate {e : Error} (h : evaluate limit source = .error e) :
    e.kind ≠ .unknown := by
  obtain ⟨value, hvalue, -⟩ | ⟨e', he', houtcome⟩ := (evaluate_keeps limit source).1
  · rw [h] at hvalue
    cases hvalue
  · rw [h] at he'
    cases he'
    cases houtcome <;> simp [Error.kind]

/-! ### The tool -/

namespace Service

lemma issues_limitOverrides (h : ∀ v ∈ maxDepth, v.IsDepth) :
    Options.issues (limitOverrides maxDepth) = [] := by
  cases maxDepth with
  | none => simp [limitOverrides, Options.issues, Json.orderKeys]
  | some v => simp [limitOverrides, Options.issues, (h v rfl).depthProblems, Json.orderKeys]

/-- With a limit within the bounds the answer is the outcome of an evaluation. -/
lemma exists_evaluateTool (h : ∀ v ∈ maxDepth, v.IsDepth) (source : Text) :
    ∃ n, evaluateTool source maxDepth = .ofOutcome "value" Json.int (evaluate n source) := by
  have hoptions : Options.ofOverrides (limitOverrides maxDepth) =
      Options.override "interpreter options" (limitOverrides maxDepth) {} := rfl
  rw [evaluateTool, hoptions, Options.override, Options.depthOverride?, issues_limitOverrides h]
  exact ⟨_, rfl⟩

lemma errorKind_ofOutcome {outcome : Except Error Int}
    (h : ∀ e, outcome = .error e → e.kind ≠ .unknown) :
    (ToolAnswer.ofOutcome "value" Json.int outcome).document.field? "errorKind" ≠
      some (.string ErrorKind.unknown.label) := by
  cases outcome with
  | ok value =>
    intro hfield
    cases hfield
  | error e =>
    intro hfield
    have hlabel : e.kind.label = ErrorKind.unknown.label :=
      Json.string.inj (Option.some.inj hfield)
    refine h e rfl ?_
    revert hlabel
    cases e.kind <;> decide

end Service

/-- Outcomes are closed. An evaluation has a word for its value or fails in one of the known ways,
and all that it binds on the way are words. The tool answers with the outcome of an evaluation if
its limit is within the bounds, and never with an error of an unknown kind. -/
theorem evaluate_outcome (limit : Nat) (source : Text) :
    ((∃ value, evaluate limit source = .ok value ∧ IsWord value) ∨
      ∃ e, evaluate limit source = .error e ∧ e.IsOutcome) ∧
    (finalScopes limit source).BindsWords ∧
    ∀ maxDepth : Option Json, (∀ v ∈ maxDepth, v.IsDepth) →
      (∃ n, Service.evaluateTool source maxDepth =
        .ofOutcome "value" Json.int (evaluate n source)) ∧
      (Service.evaluateTool source maxDepth).document.field? "errorKind" ≠
        some (.string ErrorKind.unknown.label) := by
  obtain ⟨houtcome, hscopes⟩ := evaluate_keeps limit source
  refine ⟨houtcome, hscopes, ?_⟩
  intro maxDepth hdepth
  obtain ⟨n, htool⟩ := Service.exists_evaluateTool hdepth source
  refine ⟨⟨n, htool⟩, ?_⟩
  rw [htool]
  apply Service.errorKind_ofOutcome
  intro e he
  exact kind_ne_of_evaluate he

/-- A sum that wraps is bound before a name without a value is met. -/
theorem evaluate_outcome_let :
    evaluate 3 "(let x 2147483647 x (add x 1) y)" = .error (.unboundName "y") ∧
    (finalScopes 3 "(let x 2147483647 x (add x 1) y)").bindings 1 =
      [(("x" : Text), -2147483648), (("x" : Text), 2147483647)] ∧
    (finalScopes 3 "(let x 2147483647 x (add x 1) y)").BindsWords ∧
    (Service.evaluateTool "(let x 2147483647 x (add x 1) y)" (some (.number ⟨false, 30, -1⟩))
      ).document.field? "errorKind" ≠ some (.string ErrorKind.unknown.label) := by
  have hdepth : Json.IsDepth (.number ⟨false, 30, -1⟩) :=
    ⟨⟨false, 30, -1⟩, 3, rfl, by decide +kernel, by decide, by decide⟩
  have houtcome := evaluate_outcome 3 "(let x 2147483647 x (add x 1) y)"
  refine ⟨by decide +kernel, by decide +kernel, houtcome.2.1, ?_⟩
  exact (houtcome.2.2 _ fun v hv => by cases hv; exact hdepth).2

end Sprig
