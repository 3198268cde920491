import Sprig.Proofs.Evaluation.Simulation

/-!
# The range of values

Every value that an evaluation handles is a word: literals are, what operators make of words is, and
so is what is looked up where only words have been bound. There is one lemma for each function of
the evaluator. Each says of all its ends, also of those in an error, that only words are bound then,
and names the errors that there can be. So the last check of an evaluation, that its value is an
exact number, never fails.
-/

namespace Sprig

/-- The errors that an evaluation can end in. -/
inductive Error.IsOutcome : Error → Prop
  | malformed (cause : SyntaxError) : IsOutcome (.malformed cause)
  | unboundName (name : Text) : IsOutcome (.unboundName name)
  | unknownOperator (name : Text) : IsOutcome (.unknownOperator name)
  | tooDeep (limit : Int) : IsOutcome (.tooDeep limit)

namespace ScopeTree

variable {t : ScopeTree} {name : Text} {value : Int}

/-- Only words are bound, whatever the scope. A scope keeps the bindings that newer ones of the same
name hide, so this speaks of every value that has ever been bound. -/
def BindsWords (t : ScopeTree) : Prop := ∀ scope, ∀ b ∈ t.bindings scope, IsWord b.2

lemma bindsWords_root : root.BindsWords := by
  intro scope b hb
  have hnil : root.bindings scope = [] := by
    rcases scope with - | scope <;> rfl
  rw [hnil] at hb
  cases hb

lemma BindsWords.child (h : t.BindsWords) (parent : Nat) : (t.child parent).2.BindsWords := by
  intro scope b hb
  rw [bindings_child] at hb
  exact h scope b hb

lemma BindsWords.define (h : t.BindsWords) (scope : Nat) (name : Text) (hvalue : IsWord value) :
    (t.define scope name value).BindsWords := by
  intro s b hb
  by_cases hs : scope = s
  · subst hs
    by_cases hscope : scope < t.scopes.size
    · rw [bindings_define_self t name value hscope] at hb
      rcases List.mem_cons.mp hb with rfl | hb
      · exact hvalue
      · exact h scope b hb
    · have hnil : (t.define scope name value).bindings scope = [] := by
        simp [bindings, ScopeTree.define, hscope]
      rw [hnil] at hb
      cases hb
  · rw [bindings_define_of_ne t name value hs] at hb
    exact h s b hb

lemma BindsWords.isWord (h : t.BindsWords) {scope : Nat}
    (hlookup : t.lookup? scope name = some value) : IsWord value := by
  obtain ⟨s, -, hs⟩ := List.exists_of_findSome?_eq_some hlookup
  obtain ⟨before, after, hbindings, -⟩ := List.lookup_eq_some_iff.mp hs
  exact h s (name, value) (by simp [hbindings])

end ScopeTree

namespace Evaluation

variable {α β : Type}

/-! ### Steps that keep to words -/

/-- Where only words are bound, the step binds nothing else, fails in one of the known ways, and
gives a result as required. -/
def Keeps (post : α → Prop) (step : EvalM α) : Prop :=
  ∀ s : Evaluation, s.scopes.BindsWords →
    match step s with
    | .ok a s' => post a ∧ s'.scopes.BindsWords
    | .error e s' => e.IsOutcome ∧ s'.scopes.BindsWords

section Steps

variable {post : α → Prop} {post' : β → Prop}

lemma keeps_pure {a : α} (h : post a) : Keeps post (pure a) := fun _ hs => ⟨h, hs⟩

lemma keeps_throw {e : Error} (h : e.IsOutcome) : Keeps post (throw e) := fun _ hs => ⟨h, hs⟩

lemma keeps_fail (c : SyntaxError) : Keeps post (fail c) := keeps_throw (.malformed c)

lemma Keeps.bind {step : EvalM β} {next : β → EvalM α} (h : Keeps post' step)
    (hnext : ∀ b, post' b → Keeps post (next b)) : Keeps post (step >>= next) := by
  intro s hs
  have hstep := h s hs
  rw [bind_apply]
  cases hresult : step s with
  | ok b s' =>
    rw [hresult] at hstep
    exact hnext b hstep.1 s' hstep.2
  | error e s' =>
    rw [hresult] at hstep
    exact hstep

lemma keeps_current : Keeps (fun _ => True) current := fun _ hs => ⟨trivial, hs⟩

lemma keeps_get : Keeps (fun _ => True) (get : EvalM Evaluation) := fun _ hs => ⟨trivial, hs⟩

lemma keeps_advance : Keeps (fun _ => True) advance := by
  intro s hs
  rw [advance_apply]
  cases s.tokens.advance with
  | ok tokens => exact ⟨trivial, hs⟩
  | error c => exact ⟨.malformed c, hs⟩

lemma keeps_peek : Keeps (fun _ => True) peek := by
  intro s hs
  rw [peek_apply]
  cases s.tokens.peek with
  | ok next => exact ⟨trivial, hs⟩
  | error c => exact ⟨.malformed c, hs⟩

lemma keeps_require (kind : TokenKind) (place : Place) :
    Keeps (fun _ => True) (require kind place) := by
  refine keeps_current.bind fun token _ => ?_
  by_cases hkind : token.kind = kind
  · rw [if_pos hkind]
    exact keeps_advance
  · rw [if_neg hkind]
    exact keeps_fail _

lemma keeps_newScope (parent : Nat) : Keeps (fun _ => True) (newScope parent) :=
  fun _ hs => ⟨trivial, hs.child parent⟩

lemma keeps_define (scope : Nat) (name : Text) {value : Int} (hvalue : IsWord value) :
    Keeps (fun _ => True) (define scope name value) :=
  fun _ hs => ⟨trivial, hs.define scope name hvalue⟩

lemma keeps_lookup (scope : Nat) (name : Text) : Keeps IsWord (lookup scope name) := by
  intro s hs
  rw [lookup_apply]
  cases hlookup : s.scopes.lookup? scope name with
  | some value => exact ⟨hs.isWord hlookup, hs⟩
  | none => exact ⟨.unboundName name, hs⟩

end Steps

/-! ### Forms -/

section Forms

variable {sub : Nat → EvalM Int}

lemma closeOperator_keeps (op : Operator) : Keeps (fun _ => True) (closeOperator op) := by
  refine keeps_current.bind fun token _ => ?_
  cases token.kind with
  | closeParen => exact keeps_advance
  | space =>
    refine keeps_peek.bind fun next _ => ?_
    exact keeps_fail _
  | openParen | identifier | integer | endOfFile => exact keeps_fail _

lemma operatorForm_keeps (hsub : ∀ scope, Keeps IsWord (sub scope)) (op : Operator) (scope : Nat) :
    Keeps IsWord (operatorForm sub op scope) := by
  refine (keeps_require _ _).bind fun _ _ => ?_
  refine (hsub scope).bind fun left _ => ?_
  refine (keeps_require _ _).bind fun _ _ => ?_
  refine (hsub scope).bind fun right _ => ?_
  refine (closeOperator_keeps op).bind fun _ _ => ?_
  exact keeps_pure (isWord_apply op left right)

lemma binding_keeps (hsub : ∀ scope, Keeps IsWord (sub scope)) (scope : Nat) (name : Text) :
    Keeps (fun _ => True) (binding sub scope name) := by
  refine keeps_advance.bind fun _ _ => ?_
  refine keeps_current.bind fun separator _ => ?_
  by_cases hspace : separator.kind = .space
  · rw [if_pos hspace]
    refine keeps_advance.bind fun _ _ => ?_
    refine (hsub scope).bind fun value hvalue => ?_
    refine (keeps_define scope name hvalue).bind fun _ _ => ?_
    refine keeps_current.bind fun next _ => ?_
    by_cases hclose : next.kind = .closeParen
    · rw [if_pos hclose]
      exact keeps_pure trivial
    · rw [if_neg hclose]
      exact keeps_require _ _
  · rw [if_neg hspace]
    exact keeps_fail _

lemma bindings_keeps (hsub : ∀ scope, Keeps IsWord (sub scope)) (scope count : Nat) :
    Keeps (fun _ => True) (bindings sub scope count) := by
  induction count with
  | zero => exact keeps_pure trivial
  | succ count ih =>
    refine keeps_current.bind fun token _ => ?_
    by_cases hkind : token.kind = .identifier
    · rw [if_pos hkind]
      refine keeps_peek.bind fun next _ => ?_
      by_cases hclose : next.kind = .closeParen
      · rw [if_pos hclose]
        exact keeps_pure trivial
      · rw [if_neg hclose]
        exact (binding_keeps hsub scope token.text).bind fun _ _ => ih
    · rw [if_neg hkind]
      exact keeps_pure trivial

lemma letForm_keeps (hsub : ∀ scope, Keeps IsWord (sub scope)) (parent : Nat) :
    Keeps IsWord (letForm sub parent) := by
  refine (keeps_newScope parent).bind fun scope _ => ?_
  refine (keeps_require _ _).bind fun _ _ => ?_
  refine keeps_get.bind fun s _ => ?_
  refine (bindings_keeps hsub scope s.tokens.size).bind fun _ _ => ?_
  refine keeps_current.bind fun token _ => ?_
  by_cases hclose : token.kind = .closeParen
  · rw [if_pos hclose]
    exact keeps_fail _
  · rw [if_neg hclose]
    refine (hsub scope).bind fun value hvalue => ?_
    refine (keeps_require _ _).bind fun _ _ => ?_
    exact keeps_pure hvalue

lemma form_keeps (hsub : ∀ scope, Keeps IsWord (sub scope)) (scope : Nat) :
    Keeps IsWord (form sub scope) := by
  refine keeps_current.bind fun head _ => ?_
  by_cases hkind : head.kind = .identifier
  · rw [if_pos hkind]
    refine keeps_advance.bind fun _ _ => ?_
    cases Operator.ofName? head.text with
    | some op => exact operatorForm_keeps hsub op scope
    | none =>
      by_cases hlet : head.text = letName
      · simp only [if_pos hlet]
        exact letForm_keeps hsub scope
      · simp only [if_neg hlet]
        exact keeps_throw (.unknownOperator _)
  · rw [if_neg hkind]
    exact keeps_fail _

/-! ### Expressions -/

lemma expressionWith_keeps (hsub : ∀ scope, Keeps IsWord (sub scope)) (scope : Nat) :
    Keeps IsWord (expressionWith sub scope) := by
  refine keeps_current.bind fun token _ => ?_
  cases token.kind with
  | integer =>
    cases hvalue : Word.ofText? token.text with
    | some value =>
      refine keeps_advance.bind fun _ _ => ?_
      exact keeps_pure (Word.isWord_of_ofText? hvalue)
    | none => exact keeps_fail _
  | identifier => exact keeps_advance.bind fun _ _ => keeps_lookup scope token.text
  | openParen => exact keeps_advance.bind fun _ _ => form_keeps hsub scope
  | endOfFile | closeParen | space => exact keeps_fail _

end Forms

/-- An expression has a word for its value, and binds words only. -/
theorem expression_keeps (limit allowance scope : Nat) :
    Keeps IsWord (expression limit allowance scope) := by
  induction allowance generalizing scope with
  | zero => exact keeps_throw (.tooDeep _)
  | succ allowance ih => exact expressionWith_keeps ih scope

/-- A word is exact, so the check of the final value is passed. -/
theorem program_keeps (limit : Nat) : Keeps IsWord (program limit) := by
  have hrest : Keeps IsWord (expression limit limit 0 >>= fun value => do
      let token ← current
      if token.kind = .endOfFile then
        if isExact value then return value
        else throw (.evaluation (("non-integer final result: " : Text) ++ Text.ofInt value))
      else fail (.trailing token)) := by
    refine (expression_keeps limit limit 0).bind fun value hvalue => ?_
    refine keeps_current.bind fun token _ => ?_
    by_cases hkind : token.kind = .endOfFile
    · rw [if_pos hkind, if_pos (isExact_of_isWord hvalue)]
      exact keeps_pure hvalue
    · rw [if_neg hkind]
      exact keeps_fail _
  refine keeps_current.bind fun first _ => ?_
  by_cases hspace : first.kind = .space
  · simp only [if_pos hspace]
    exact keeps_advance.bind fun _ _ => hrest
  · simp only [if_neg hspace]
    exact hrest

end Evaluation

end Sprig
