import Sprig.Scope
import Sprig.Token.Cursor

/-!
# Steps of an evaluation

An evaluation holds what is left to read and the scopes. A step changes them, and gives a result
or fails; what it changed before it failed stays changed. The lemmas say what each step does to a
state.
-/

namespace Sprig

/-- The state of an evaluation: what is left to read, and the scopes. -/
structure Evaluation where
  tokens : TokenCursor
  scopes : ScopeTree
  deriving DecidableEq, Repr

/-- A step of an evaluation. -/
abbrev EvalM := EStateM Error Evaluation

namespace Evaluation

variable {α β : Type}

/-! ### Tokens -/

/-- Fails with a syntax error. -/
def fail (e : SyntaxError) : EvalM α := throw (.malformed e)

/-- The current token. -/
def current : EvalM Token := return (← get).tokens.current

/-- Moves to the next token. -/
def advance : EvalM Unit := do
  let s ← get
  match s.tokens.advance with
  | .ok tokens => set { s with tokens }
  | .error e => fail e

/-- Looks at the token after the current one. -/
def peek : EvalM Token := do
  let s ← get
  match s.tokens.peek with
  | .ok (token, tokens) => set { s with tokens }; return token
  | .error e => fail e

/-- Moves past a token of a kind that is required at a place. -/
def require (kind : TokenKind) (place : Place) : EvalM Unit := do
  let token ← current
  if token.kind = kind then advance else fail (.missing kind place token)

/-! ### Scopes -/

/-- Makes a scope inside another. -/
def newScope (parent : Nat) : EvalM Nat := do
  let s ← get
  let (scope, scopes) := s.scopes.child parent
  set { s with scopes }
  return scope

/-- Binds a name. -/
def define (scope : Nat) (name : Text) (value : Int) : EvalM Unit :=
  modify fun s => { s with scopes := s.scopes.define scope name value }

/-- The value of a name. -/
def lookup (scope : Nat) (name : Text) : EvalM Int := do
  match (← get).scopes.lookup? scope name with
  | some value => return value
  | none => throw (.unboundName name)

/-! ### What the steps do to a state -/

@[simp] theorem pure_apply (a : α) (s : Evaluation) : (pure a : EvalM α) s = .ok a s := rfl

@[simp] theorem throw_apply (e : Error) (s : Evaluation) :
    (throw e : EvalM α) s = .error e s := rfl

@[simp] theorem get_apply (s : Evaluation) : (get : EvalM Evaluation) s = .ok s s := rfl

@[simp] theorem set_apply (s t : Evaluation) : (set t : EvalM PUnit) s = .ok ⟨⟩ t := rfl

theorem bind_apply (x : EvalM α) (f : α → EvalM β) (s : Evaluation) :
    (x >>= f) s = match x s with
      | .ok a t => f a t
      | .error e t => .error e t := by
  simp only [bind, EStateM.bind]
  cases x s <;> rfl

@[simp] theorem fail_apply (e : SyntaxError) (s : Evaluation) :
    (fail e : EvalM α) s = .error (.malformed e) s := rfl

@[simp] theorem current_apply (s : Evaluation) : current s = .ok s.tokens.current s := rfl

theorem advance_apply (s : Evaluation) :
    advance s = match s.tokens.advance with
      | .ok tokens => .ok () { s with tokens }
      | .error e => .error (.malformed e) s := by
  simp only [advance, bind_apply, get_apply]
  cases s.tokens.advance <;> rfl

theorem peek_apply (s : Evaluation) :
    peek s = match s.tokens.peek with
      | .ok (token, tokens) => .ok token { s with tokens }
      | .error e => .error (.malformed e) s := by
  simp only [peek, bind_apply, get_apply]
  cases s.tokens.peek <;> rfl

theorem require_apply (kind : TokenKind) (place : Place) (s : Evaluation) :
    require kind place s =
      if s.tokens.current.kind = kind then advance s
      else .error (.malformed (.missing kind place s.tokens.current)) s := by
  simp only [require, bind_apply, current_apply]
  split <;> rfl

@[simp] theorem newScope_apply (parent : Nat) (s : Evaluation) :
    newScope parent s =
      .ok (s.scopes.child parent).1 { s with scopes := (s.scopes.child parent).2 } := rfl

@[simp] theorem define_apply (scope : Nat) (name : Text) (value : Int) (s : Evaluation) :
    define scope name value s =
      .ok ⟨⟩ { s with scopes := s.scopes.define scope name value } := rfl

theorem lookup_apply (scope : Nat) (name : Text) (s : Evaluation) :
    lookup scope name s =
      match s.scopes.lookup? scope name with
      | some value => .ok value s
      | none => .error (.unboundName name) s := by
  simp only [lookup, bind_apply, get_apply]
  cases s.scopes.lookup? scope name <;> rfl

end Evaluation

end Sprig
