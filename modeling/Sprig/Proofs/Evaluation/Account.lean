import Mathlib.Tactic.Common
import Sprig.Evaluation.Expression

/-!
# Accounts of evaluations

An evaluation may keep an account of what it does: where it calls for expressions, how deep these
calls are nested, and which tokens it has moved past. A call is then refused since it is counted to
be too deep, and the names of a `let` are bound in rounds, each of which tells whether it has bound
one.

There is one function for each function of the evaluator. Without the account they are the same:
whatever is in the account, they give the same results or errors and leave the same states, and a
call that returns leaves the count as it was.
-/

namespace Sprig

/-- What is noted about an evaluation. -/
structure Account where
  /-- The number of calls for expressions that have not ended. -/
  depth : Nat
  /-- The states and scopes that expressions have been called for in, the latest last. -/
  calls : List (Evaluation × Nat)
  /-- The tokens that have been moved past, the latest last. -/
  passed : List Token
  deriving DecidableEq, Repr

namespace Account

/-- Notes that a call in a scope has started. -/
def enter (scope : Nat) (p : Evaluation × Account) : Evaluation × Account :=
  (p.1, { p.2 with depth := p.2.depth + 1, calls := p.2.calls ++ [(p.1, scope)] })

/-- Notes that a call has ended. -/
def leave (p : Evaluation × Account) : Evaluation × Account :=
  (p.1, { p.2 with depth := p.2.depth - 1 })

/-- Notes that a token has been moved past. -/
def note (t : Token) (p : Evaluation × Account) : Evaluation × Account :=
  (p.1, { p.2 with passed := p.2.passed ++ [t] })

end Account

/-- A step of an evaluation that keeps an account. -/
abbrev AccountM := EStateM Error (Evaluation × Account)

variable {α β : Type}

/-! ### Rounds of bindings -/

namespace Evaluation

/-- Binds one name, if there is one to be bound, and tells whether there was. -/
def round (sub : Nat → EvalM Int) (scope : Nat) : EvalM Bool := do
  let token ← current
  if token.kind = .identifier then
    let next ← peek
    if next.kind = .closeParen then return false
    else
      binding sub scope token.text
      return true
  else return false

/-- Names are bound round by round, until a round finds none. -/
lemma bindings_succ (sub : Nat → EvalM Int) (scope count : Nat) :
    bindings sub scope (count + 1) =
      round sub scope >>= fun found => if found then bindings sub scope count else return := by
  simp only [bindings, round, bind_assoc]
  refine bind_congr fun token => ?_
  by_cases hkind : token.kind = .identifier
  · rw [if_pos hkind, if_pos hkind, bind_assoc]
    refine bind_congr fun next => ?_
    by_cases hclose : next.kind = .closeParen <;> simp [hclose]
  · simp [hkind]

end Evaluation

namespace Account

/-! ### Steps -/

/-- A step that nothing is noted about. -/
def step (x : EvalM α) : AccountM α := fun p =>
  match x p.1 with
  | .ok a s => .ok a (s, p.2)
  | .error e s => .error e (s, p.2)

/-- Moves to the next token, and notes the one that has been moved past. -/
def advance : AccountM Unit := do
  let token ← step Evaluation.current
  step Evaluation.advance
  modify (note token)

/-- Moves past a token of a kind that is required at a place. -/
def require (kind : TokenKind) (place : Place) : AccountM Unit := do
  let token ← step Evaluation.current
  if token.kind = kind then advance else step (Evaluation.fail (.missing kind place token))

/-- A call in a scope, which counts from its start to its end. One that is too deep is refused, and
the count is left as it is then. -/
def nested (limit scope : Nat) (part : AccountM α) : AccountM α := do
  modify (enter scope)
  let (_, c) ← get
  if limit < c.depth then throw (.tooDeep limit)
  try part finally modify leave

/-! ### Forms -/

section Forms

variable (sub : Nat → AccountM Int)

/-- Moves past the parenthesis that closes an operator's form. -/
def closeOperator (op : Operator) : AccountM Unit := do
  let token ← step Evaluation.current
  match token.kind with
  | .closeParen => advance
  | .space =>
    let next ← step Evaluation.peek
    let found := if next.kind = .closeParen ∨ next.kind = .endOfFile then token else next
    step (Evaluation.fail (.missing .closeParen (.afterSecondOperand op) found))
  | _ => step (Evaluation.fail (.missing .closeParen (.afterSecondOperand op) token))

/-- The rest of an operator's form after the operator. -/
def operatorForm (op : Operator) (scope : Nat) : AccountM Int := do
  require .space (.afterOperator op)
  let left ← sub scope
  require .space (.betweenOperands op)
  let right ← sub scope
  closeOperator op
  return op.apply left right

/-- One binding, its name being the current token. -/
def binding (scope : Nat) (name : Text) : AccountM Unit := do
  advance
  let separator ← step Evaluation.current
  if separator.kind = .space then
    advance
    let value ← sub scope
    step (Evaluation.define scope name value)
    let next ← step Evaluation.current
    if next.kind = .closeParen then return else require .space (.afterValue name)
  else step (Evaluation.fail (.noValue name separator))

/-- Binds one name, if there is one to be bound, and tells whether there was. -/
def round (scope : Nat) : AccountM Bool := do
  let token ← step Evaluation.current
  if token.kind = .identifier then
    let next ← step Evaluation.peek
    if next.kind = .closeParen then return false
    else
      binding sub scope token.text
      return true
  else return false

/-- The rounds of a `let`, at most `count` of them. -/
def bindings (scope : Nat) : (count : Nat) → AccountM Unit
  | 0 => return
  | count + 1 => do if ← round sub scope then bindings scope count else return

/-- The rest of a `let` form after its head. -/
def letForm (parent : Nat) : AccountM Int := do
  let scope ← step (Evaluation.newScope parent)
  require .space .afterLet
  bindings sub scope (← step get).tokens.size
  let token ← step Evaluation.current
  if token.kind = .closeParen then step (Evaluation.fail (.noBody token))
  else
    let value ← sub scope
    require .closeParen .endOfLet
    return value

/-- A form after its opening parenthesis. -/
def form (scope : Nat) : AccountM Int := do
  let head ← step Evaluation.current
  if head.kind = .identifier then
    advance
    match Operator.ofName? head.text with
    | some op => operatorForm sub op scope
    | none =>
      if head.text = letName then letForm sub scope else throw (.unknownOperator head.text)
  else step (Evaluation.fail (.noHead head))

/-- An expression whose parts are evaluated by `sub`. -/
def expressionWith (scope : Nat) : AccountM Int := do
  let token ← step Evaluation.current
  match token.kind with
  | .integer =>
    match Word.ofText? token.text with
    | some value => advance; return value
    | none => step (Evaluation.fail (.literalOutOfRange token))
  | .identifier => advance; step (Evaluation.lookup scope token.text)
  | .openParen => advance; form sub scope
  | .endOfFile => step (Evaluation.fail (.unexpectedEnd token))
  | .closeParen | .space => step (Evaluation.fail (.unexpectedToken token))

end Forms

/-! ### Expressions -/

/-- An expression in a scope. Its calls are nested no deeper than `allowance`, which is never what
refuses one if the limit leaves no more. -/
def expression (limit : Nat) : (allowance : Nat) → (scope : Nat) → AccountM Int
  | 0, scope => nested limit scope (throw (.tooDeep limit))
  | allowance + 1, scope => nested limit scope (expressionWith (expression limit allowance) scope)

/-! ### What the steps do -/

variable {p : Evaluation × Account}

@[simp] lemma fst_enter (scope : Nat) : (enter scope p).1 = p.1 := rfl

@[simp] lemma depth_enter (scope : Nat) : (enter scope p).2.depth = p.2.depth + 1 := rfl

@[simp] lemma depth_leave : (leave p).2.depth = p.2.depth - 1 := rfl

lemma bind_apply (x : AccountM α) (f : α → AccountM β) (p : Evaluation × Account) :
    (x >>= f) p = match x p with
      | .ok a p' => f a p'
      | .error e p' => .error e p' := by
  simp only [bind, EStateM.bind]
  cases x p <;> rfl

lemma step_apply (x : EvalM α) (p : Evaluation × Account) :
    step x p = match x p.1 with
      | .ok a s => .ok a (s, p.2)
      | .error e s => .error e (s, p.2) :=
  rfl

lemma advance_apply (p : Evaluation × Account) :
    advance p = match Evaluation.advance p.1 with
      | .ok _ s => .ok () (note p.1.tokens.current (s, p.2))
      | .error e s => .error e (s, p.2) := by
  simp only [advance, bind_apply, step_apply, Evaluation.current_apply]
  cases Evaluation.advance p.1 <;> rfl

lemma tryFinally_modify_apply (x : AccountM α) (f : Evaluation × Account → Evaluation × Account)
    (p : Evaluation × Account) :
    tryFinally x (modify f) p = match x p with
      | .ok a p' => .ok a (f p')
      | .error e p' => .error e (f p') := by
  simp only [tryFinally, tryFinally', Functor.map, EStateM.map]
  cases x p <;> rfl

lemma nested_apply (limit scope : Nat) (part : AccountM α) (p : Evaluation × Account) :
    nested limit scope part p =
      if limit < (enter scope p).2.depth then .error (.tooDeep limit) (enter scope p)
      else match part (enter scope p) with
        | .ok a p' => .ok a (leave p')
        | .error e p' => .error e (leave p') := by
  have hmodify : (modify (enter scope) : AccountM PUnit) p = .ok ⟨⟩ (enter scope p) := rfl
  have hget : (get : AccountM (Evaluation × Account)) (enter scope p) =
      .ok (enter scope p) (enter scope p) := rfl
  simp only [nested, bind_apply, hmodify, hget]
  by_cases h : limit < (enter scope p).2.depth
  · rw [if_pos h, if_pos h]
    rfl
  · rw [if_neg h, if_neg h]
    exact tryFinally_modify_apply part leave (enter scope p)

/-! ### Without the account -/

/-- An end of a step without the account. -/
def forget : EStateM.Result Error (Evaluation × Account) α → EStateM.Result Error Evaluation α
  | .ok a p => .ok a p.1
  | .error e p => .error e p.1

/-- Called at a depth, a step is another one if the account is forgotten, and it does not return at
a different depth. -/
def Agrees (depth : Nat) (x : AccountM α) (y : EvalM α) : Prop :=
  ∀ p : Evaluation × Account, p.2.depth = depth →
    forget (x p) = y p.1 ∧ ∀ a p', x p = .ok a p' → p'.2.depth = depth

section Steps

variable {depth : Nat}

lemma agrees_pure (a : α) : Agrees depth (pure a) (pure a) := by
  intro p hp
  refine ⟨rfl, fun b p' h => ?_⟩
  cases h
  exact hp

lemma Agrees.bind {x : AccountM α} {y : EvalM α} {f : α → AccountM β} {g : α → EvalM β}
    (h : Agrees depth x y) (hf : ∀ a, Agrees depth (f a) (g a)) :
    Agrees depth (x >>= f) (y >>= g) := by
  intro p hp
  obtain ⟨hforget, hdepth⟩ := h p hp
  rw [bind_apply, Evaluation.bind_apply, ← hforget]
  cases hx : x p with
  | ok a p' => exact hf a p' (hdepth a p' hx)
  | error e p' => exact ⟨rfl, fun _ _ h => nomatch h⟩

lemma Agrees.ite {c : Prop} [Decidable c] {x x' : AccountM α} {y y' : EvalM α}
    (h : Agrees depth x y) (h' : Agrees depth x' y') :
    Agrees depth (if c then x else x') (if c then y else y') := by
  by_cases hc : c
  · simpa only [if_pos hc] using h
  · simpa only [if_neg hc] using h'

lemma agrees_step (x : EvalM α) : Agrees depth (step x) x := by
  intro p hp
  rw [step_apply]
  cases x p.1 with
  | ok a s =>
    refine ⟨rfl, fun b p' h => ?_⟩
    cases h
    exact hp
  | error e s => exact ⟨rfl, fun _ _ h => nomatch h⟩

lemma agrees_throw (e : Error) : Agrees depth (throw e : AccountM α) (throw e) :=
  fun _ _ => ⟨rfl, fun _ _ h => nomatch h⟩

lemma agrees_advance : Agrees depth advance Evaluation.advance := by
  intro p hp
  rw [advance_apply]
  cases Evaluation.advance p.1 with
  | ok a s =>
    refine ⟨rfl, fun b p' h => ?_⟩
    cases h
    exact hp
  | error e s => exact ⟨rfl, fun _ _ h => nomatch h⟩

lemma agrees_require (kind : TokenKind) (place : Place) :
    Agrees depth (require kind place) (Evaluation.require kind place) := by
  refine (agrees_step _).bind fun token => ?_
  exact agrees_advance.ite (agrees_step _)

/-- A call at a depth is refused just if the limit leaves no allowance. -/
lemma agrees_nested {limit scope : Nat} {x : AccountM α} {y : EvalM α}
    (h : depth < limit → Agrees (depth + 1) x y)
    (hlimit : limit ≤ depth → y = throw (.tooDeep limit)) :
    Agrees depth (nested limit scope x) y := by
  intro p hp
  rw [nested_apply, depth_enter]
  by_cases hdepth : limit < p.2.depth + 1
  · rw [if_pos hdepth, hlimit (by omega)]
    exact ⟨rfl, fun _ _ h => nomatch h⟩
  · rw [if_neg hdepth]
    obtain ⟨hforget, hback⟩ := h (by omega) (enter scope p) (by rw [depth_enter, hp])
    rw [fst_enter] at hforget
    rw [← hforget]
    cases hx : x (enter scope p) with
    | ok a p' =>
      refine ⟨rfl, fun b p'' h => ?_⟩
      cases h
      rw [depth_leave, hback a p' hx, Nat.add_sub_cancel]
    | error e p' => exact ⟨rfl, fun _ _ h => nomatch h⟩

end Steps

section Forms

variable {depth : Nat} {sub : Nat → AccountM Int} {sub' : Nat → EvalM Int}

lemma agrees_closeOperator (op : Operator) :
    Agrees depth (closeOperator op) (Evaluation.closeOperator op) := by
  refine (agrees_step _).bind fun token => ?_
  cases token.kind with
  | closeParen => exact agrees_advance
  | space => exact (agrees_step _).bind fun next => agrees_step _
  | openParen | identifier | integer | endOfFile => exact agrees_step _

lemma agrees_operatorForm (hsub : ∀ scope, Agrees depth (sub scope) (sub' scope)) (op : Operator)
    (scope : Nat) :
    Agrees depth (operatorForm sub op scope) (Evaluation.operatorForm sub' op scope) := by
  refine (agrees_require _ _).bind fun _ => ?_
  refine (hsub scope).bind fun left => ?_
  refine (agrees_require _ _).bind fun _ => ?_
  refine (hsub scope).bind fun right => ?_
  refine (agrees_closeOperator op).bind fun _ => ?_
  exact agrees_pure _

lemma agrees_binding (hsub : ∀ scope, Agrees depth (sub scope) (sub' scope)) (scope : Nat)
    (name : Text) : Agrees depth (binding sub scope name) (Evaluation.binding sub' scope name) := by
  refine agrees_advance.bind fun _ => ?_
  refine (agrees_step _).bind fun separator => ?_
  refine Agrees.ite ?_ (agrees_step _)
  refine agrees_advance.bind fun _ => ?_
  refine (hsub scope).bind fun value => ?_
  refine (agrees_step _).bind fun _ => ?_
  refine (agrees_step _).bind fun next => ?_
  exact (agrees_pure _).ite (agrees_require _ _)

lemma agrees_round (hsub : ∀ scope, Agrees depth (sub scope) (sub' scope)) (scope : Nat) :
    Agrees depth (round sub scope) (Evaluation.round sub' scope) := by
  refine (agrees_step _).bind fun token => ?_
  refine Agrees.ite ?_ (agrees_pure _)
  refine (agrees_step _).bind fun next => ?_
  refine (agrees_pure _).ite ?_
  exact (agrees_binding hsub scope token.text).bind fun _ => agrees_pure _

lemma agrees_bindings (hsub : ∀ scope, Agrees depth (sub scope) (sub' scope)) (scope count : Nat) :
    Agrees depth (bindings sub scope count) (Evaluation.bindings sub' scope count) := by
  induction count with
  | zero => exact agrees_pure _
  | succ count ih =>
    rw [Evaluation.bindings_succ]
    refine (agrees_round hsub scope).bind fun found => ?_
    cases found with
    | true => exact ih
    | false => exact agrees_pure _

lemma agrees_letForm (hsub : ∀ scope, Agrees depth (sub scope) (sub' scope)) (parent : Nat) :
    Agrees depth (letForm sub parent) (Evaluation.letForm sub' parent) := by
  refine (agrees_step _).bind fun scope => ?_
  refine (agrees_require _ _).bind fun _ => ?_
  refine (agrees_step _).bind fun s => ?_
  refine (agrees_bindings hsub scope _).bind fun _ => ?_
  refine (agrees_step _).bind fun token => ?_
  refine (agrees_step _).ite ?_
  refine (hsub scope).bind fun value => ?_
  refine (agrees_require _ _).bind fun _ => ?_
  exact agrees_pure _

lemma agrees_form (hsub : ∀ scope, Agrees depth (sub scope) (sub' scope)) (scope : Nat) :
    Agrees depth (form sub scope) (Evaluation.form sub' scope) := by
  refine (agrees_step _).bind fun head => ?_
  refine Agrees.ite ?_ (agrees_step _)
  refine agrees_advance.bind fun _ => ?_
  cases Operator.ofName? head.text with
  | some op => exact agrees_operatorForm hsub op scope
  | none => exact (agrees_letForm hsub scope).ite (agrees_throw _)

lemma agrees_expressionWith (hsub : ∀ scope, Agrees depth (sub scope) (sub' scope)) (scope : Nat) :
    Agrees depth (expressionWith sub scope) (Evaluation.expressionWith sub' scope) := by
  refine (agrees_step _).bind fun token => ?_
  cases token.kind with
  | integer =>
    cases Word.ofText? token.text with
    | some value => exact agrees_advance.bind fun _ => agrees_pure _
    | none => exact agrees_step _
  | identifier => exact agrees_advance.bind fun _ => agrees_step _
  | openParen => exact agrees_advance.bind fun _ => agrees_form hsub scope
  | endOfFile | closeParen | space => exact agrees_step _

end Forms

lemma expression_eq_throw {limit depth : Nat} (h : limit ≤ depth) (scope : Nat) :
    Evaluation.expression limit (limit - depth) scope = throw (.tooDeep limit) := by
  rw [Nat.sub_eq_zero_of_le h]
  rfl

/-- Counting refuses the same calls as the allowance that the limit leaves. A greater allowance is
of no use then. -/
theorem agrees_expression {limit depth allowance : Nat} (h : limit ≤ depth + allowance)
    (scope : Nat) :
    Agrees depth (expression limit allowance scope)
      (Evaluation.expression limit (limit - depth) scope) := by
  induction allowance generalizing depth scope with
  | zero => exact agrees_nested (fun hlt => by omega) fun hle => expression_eq_throw hle scope
  | succ allowance ih =>
    refine agrees_nested (fun hlt => ?_) fun hle => expression_eq_throw hle scope
    rw [show limit - depth = limit - (depth + 1) + 1 by omega]
    exact agrees_expressionWith (fun scope => ih (by omega) scope) scope

end Account

end Sprig
