import Sprig.Proofs.Evaluation.Reach
import Sprig.Proofs.Expr.Text
import Sprig.Proofs.Reader.Basic

/-!
# The contract of a call for an expression

A call for an expression may be made in any state that is reached and in any scope that is there. If
it returns, then it has passed the tokens of one expression and nothing else, holds no token back,
counts the calls as before, and no scope that was there answers differently. Whether it returns or
fails, it has never moved past the end of the input.

There is one lemma for each function of the evaluator, about whatever evaluates the parts, as long
as that keeps the contract itself. A `let` binds its names in a loop without a bound of its own. A
round of it that binds a name passes three tokens at least, so the loop comes to an end, and the
units that are left are rounds enough for it.
-/

namespace Sprig

namespace Account

open Evaluation (IsReached)

variable {source : Text} {ts us : List Token} {start p p' : Evaluation × Account} {scope : Nat}

/-! ### Expressions that are passed -/

/-- Tokens of one expression. -/
def Spell (ts : List Token) : Prop := ∃ e : Expr, e.isWellFormed ∧ Token.texts ts = e.text

/-- Tokens that go on with an expression after some units of it. -/
def SpellAfter (before : Text) (ts : List Token) : Prop :=
  ∃ e : Expr, e.isWellFormed ∧ before ++ Token.texts ts = e.text

/-- Tokens of bindings: with them before it, what may stand inside a `let` still may. -/
def SpellBindings (ts : List Token) : Prop :=
  ∀ inside : LetTail, inside.isWellFormed →
    ∃ inside' : LetTail, inside'.isWellFormed ∧ inside'.text = Token.texts ts ++ inside.text

/-- A call for an expression has returned. -/
structure Returned (source : Text) (ts : List Token) (p p' : Evaluation × Account) : Prop where
  passed : HasPassed source ts p p'
  spell : Spell ts
  held : p'.1.tokens.held = none
  grown : p'.1.scopes.Extends p.1.scopes

/-- The rest of an expression has been passed, of which some units stand before it. -/
structure Finished (source before : Text) (ts us : List Token)
    (start p p' : Evaluation × Account) : Prop where
  passed : HasPassed source (ts ++ us) start p'
  spell : SpellAfter before us
  held : p'.1.tokens.held = none
  grown : p'.1.scopes.Extends p.1.scopes

/-- An evaluator of expressions keeps the contract. -/
def KeepsContract (source : Text) (sub : Nat → AccountM Int) : Prop :=
  ∀ (p : Evaluation × Account) (scope : Nat), p.1.IsReached source →
    scope < p.1.scopes.scopes.size →
      Ends source p (sub scope) p fun _ p' => ∃ ts, Returned source ts p p'

lemma SpellBindings.nil : SpellBindings [] := fun inside hinside => ⟨inside, hinside, rfl⟩

lemma SpellBindings.append (h : SpellBindings ts) (h' : SpellBindings us) :
    SpellBindings (ts ++ us) := by
  intro inside hinside
  obtain ⟨inside₁, hinside₁, htext₁⟩ := h' inside hinside
  obtain ⟨inside₂, hinside₂, htext₂⟩ := h inside₁ hinside₁
  exact ⟨inside₂, hinside₂, by rw [htext₂, htext₁, Token.texts_append, List.append_assoc]⟩

lemma SpellBindings.binding {name t t' : Token} (hname : name.text.isIdentifier)
    (ht : t.text = [CodeUnit.space]) (hvalue : Spell us) (ht' : t'.text = [CodeUnit.space]) :
    SpellBindings (name :: t :: (us ++ [t'])) := by
  intro inside hinside
  obtain ⟨e, he, htext⟩ := hvalue
  refine ⟨.bind name.text e inside, by simp [LetTail.isWellFormed, hname, he, hinside], ?_⟩
  simp [LetTail.text, ht, ht', htext]

lemma Spell.ne_nil (h : Spell ts) : ts ≠ [] := by
  obtain ⟨e, he, htext⟩ := h
  rintro rfl
  exact Expr.text_ne_nil he htext.symm

section Forms

variable {sub : Nat → AccountM Int} {post : Int → Evaluation × Account → Prop}

/-- A part of a form. -/
lemma KeepsContract.ends (hsub : KeepsContract source sub) (h : HasPassed source ts start p)
    (hscope : scope < p.1.scopes.scopes.size)
    (hpost : ∀ value us p', Returned source us p p' → HasPassed source (ts ++ us) start p' →
      post value p') :
    Ends source start (sub scope) p post := by
  refine Ends.from_start h ((hsub p scope h.reached hscope).mono ?_)
  rintro value p' ⟨us, hreturned⟩
  exact hpost value us p' hreturned (h.trans hreturned.passed)

/-! ### Operators -/

lemma closeOperator_ends {op : Operator} {post : Unit → Evaluation × Account → Prop}
    (h : HasPassed source ts start p)
    (hpost : ∀ t p', t.text = [CodeUnit.closeParen] → HasPassed source (ts ++ [t]) start p' →
      p'.1.scopes = p.1.scopes → p'.1.tokens.held = none → post () p') :
    Ends source start (closeOperator op) p post := by
  refine ends_bind (ends_current ?_)
  have haccepts := h.accepts
  cases hkind : p.1.tokens.current.kind with
  | closeParen =>
    refine ends_advance h (by simp [hkind]) fun p' => hpost _ p' ?_
    exact Token.text_eq_closeParen haccepts hkind
  | space => exact ends_bind (ends_peek h fun u p' h' _ _ => ends_fail h')
  | openParen | identifier | integer | endOfFile => exact ends_fail h

lemma operatorForm_ends (hsub : KeepsContract source sub) (op : Operator)
    (h : HasPassed source ts start p) (hscope : scope < p.1.scopes.scopes.size) :
    Ends source start (operatorForm sub op scope) p fun _ p' =>
      ∃ us, Finished source (CodeUnit.openParen :: op.name) ts us start p p' := by
  refine ends_bind (ends_require h (by decide) fun t₁ p₁ ht₁ h₁ hs₁ _ => ?_)
  refine ends_bind (hsub.ends h₁ (hs₁ ▸ hscope) fun m us p₂ hm h₂ => ?_)
  refine ends_bind (ends_require h₂ (by decide) fun t₂ p₃ ht₂ h₃ hs₃ _ => ?_)
  have hgrown : p₃.1.scopes.Extends p.1.scopes := hs₃ ▸ hs₁ ▸ hm.grown
  refine ends_bind (hsub.ends h₃ (hscope.trans_le hgrown.1) fun n vs p₄ hn h₄ => ?_)
  refine ends_bind (closeOperator_ends h₄ fun t₃ p₅ ht₃ h₅ hs₅ hheld => ends_pure ?_)
  obtain ⟨left, hleft, hus⟩ := hm.spell
  obtain ⟨right, hright, hvs⟩ := hn.spell
  refine ⟨t₁ :: (us ++ t₂ :: (vs ++ [t₃])), by simpa using h₅, ?_, hheld,
    hs₅ ▸ hn.grown.trans hgrown⟩
  refine ⟨.operation op left right, by simp [Expr.isWellFormed, hleft, hright], ?_⟩
  simp only [TokenKind.accepts, decide_eq_true_eq] at ht₁ ht₂
  simp [Expr.text, ht₁, ht₂, ht₃, hus, hvs]

/-! ### Bindings -/

/-- A `let` is at a place between its bindings: they have been passed, and the scopes that were
there before it are as they were. If there is no space after the last value, then what comes next is
a closing parenthesis. -/
structure IsInside (source : Text) (ts us : List Token) (base : ScopeTree) (scope : Nat)
    (start p : Evaluation × Account) : Prop where
  passed : HasPassed source (ts ++ us) start p
  scope_lt : scope < p.1.scopes.scopes.size
  grown : p.1.scopes.Extends base
  spell : p.1.tokens.current.kind = .closeParen ∨ SpellBindings us

/-- A binding passes a name, a space, the value, and a space if another one may follow. -/
lemma binding_ends {base : ScopeTree} (hsub : KeepsContract source sub)
    (h : IsInside source ts us base scope start p) (hbase : base.scopes.size ≤ scope)
    (hkind : p.1.tokens.current.kind = .identifier) :
    Ends source start (binding sub scope p.1.tokens.current.text) p fun _ p' =>
      ∃ vs, 3 ≤ vs.length ∧ IsInside source ts (us ++ vs) base scope start p' := by
  have hname := Token.isIdentifier_text h.passed.accepts hkind
  have hspell : SpellBindings us := h.spell.resolve_left (by simp [hkind])
  generalize hcurrent : p.1.tokens.current = name at hname ⊢
  refine ends_bind (ends_advance h.passed (by simp [hkind]) fun p₁ h₁ hs₁ _ => ?_)
  refine ends_bind (ends_current ?_)
  by_cases hspace : p₁.1.tokens.current.kind = .space
  · rw [if_pos hspace]
    have ht₁ := Token.text_eq_space h₁.accepts hspace
    refine ends_bind (ends_advance h₁ (by simp [hspace]) fun p₂ h₂ hs₂ _ => ?_)
    have hscopes : p₂.1.scopes = p.1.scopes := hs₂.trans hs₁
    refine ends_bind (hsub.ends h₂ (hscopes ▸ h.scope_lt) fun value vs p₃ hvalue h₃ => ?_)
    have hgrown : p₃.1.scopes.Extends base := (hscopes ▸ hvalue.grown).trans h.grown
    have hscope : scope < p₃.1.scopes.scopes.size :=
      h.scope_lt.trans_le (hscopes ▸ hvalue.grown.1)
    refine ends_bind (ends_define h₃ hscope fun p₄ h₄ hs₄ => ?_)
    have hscope₄ : scope < p₄.1.scopes.scopes.size := by simpa [hs₄] using hscope
    have hgrown₄ : p₄.1.scopes.Extends base := hs₄ ▸ hgrown.define hbase _ value
    have hpos : 0 < vs.length := List.length_pos_iff.mpr hvalue.spell.ne_nil
    refine ends_bind (ends_current ?_)
    by_cases hclose : p₄.1.tokens.current.kind = .closeParen
    · rw [if_pos hclose]
      refine ends_pure ⟨name :: p₁.1.tokens.current :: vs, by simp; omega, ?_⟩
      exact ⟨by simpa [hcurrent] using h₄, hscope₄, hgrown₄, Or.inl hclose⟩
    · rw [if_neg hclose]
      refine ends_require h₄ (by decide) fun t p₅ ht h₅ hs₅ _ => ?_
      refine ⟨name :: p₁.1.tokens.current :: (vs ++ [t]), by simp, ?_⟩
      refine ⟨by simpa [hcurrent] using h₅, hs₅ ▸ hscope₄, hs₅ ▸ hgrown₄, Or.inr ?_⟩
      simp only [TokenKind.accepts, decide_eq_true_eq] at ht
      exact hspell.append (.binding (hcurrent ▸ hname) ht₁ hvalue.spell ht)
  · rw [if_neg hspace]
    exact ends_fail h₁

/-- A round stays inside the `let`, and it has passed a binding if it tells that there was one. -/
lemma round_ends {base : ScopeTree} (hsub : KeepsContract source sub)
    (h : IsInside source ts us base scope start p) (hbase : base.scopes.size ≤ scope) :
    Ends source start (round sub scope) p fun found p' =>
      ∃ vs, (found → 3 ≤ vs.length) ∧ IsInside source ts (us ++ vs) base scope start p' := by
  have hstay : IsInside source ts (us ++ []) base scope start p := by simpa using h
  refine ends_bind (ends_current ?_)
  by_cases hkind : p.1.tokens.current.kind = .identifier
  · rw [if_pos hkind]
    refine ends_bind (ends_peek h.passed fun next p₁ h₁ hs₁ hcurrent => ?_)
    have hinside : IsInside source ts us base scope start p₁ :=
      ⟨h₁, hs₁ ▸ h.scope_lt, hs₁ ▸ h.grown, hcurrent ▸ h.spell⟩
    by_cases hclose : next.kind = .closeParen
    · rw [if_pos hclose]
      exact ends_pure ⟨[], by simp, by simpa using hinside⟩
    · rw [if_neg hclose, ← hcurrent]
      refine ends_bind ((binding_ends hsub hinside hbase (hcurrent ▸ hkind)).mono ?_)
      rintro - p₂ ⟨vs, hvs, h₂⟩
      exact ends_pure ⟨vs, fun _ => hvs, h₂⟩
  · rw [if_neg hkind]
    exact ends_pure ⟨[], by simp, hstay⟩

lemma bindings_ends {base : ScopeTree} (hsub : KeepsContract source sub)
    (h : IsInside source ts us base scope start p) (hbase : base.scopes.size ≤ scope)
    (count : Nat) :
    Ends source start (bindings sub scope count) p fun _ p' =>
      ∃ vs, IsInside source ts vs base scope start p' := by
  induction count generalizing us p with
  | zero => exact ends_pure ⟨us, h⟩
  | succ count ih =>
    refine ends_bind ((round_ends hsub h hbase).mono ?_)
    rintro found p₁ ⟨vs, -, h₁⟩
    cases found with
    | true => exact ih h₁
    | false => exact ends_pure ⟨us ++ vs, h₁⟩

lemma letForm_ends (hsub : KeepsContract source sub) (h : HasPassed source ts start p)
    (hscope : scope < p.1.scopes.scopes.size) :
    Ends source start (letForm sub scope) p fun _ p' =>
      ∃ us, Finished source (CodeUnit.openParen :: letName) ts us start p p' := by
  refine ends_bind (ends_newScope h hscope fun p₁ h₁ hs₁ => ?_)
  refine ends_bind (ends_require h₁ (by decide) fun t₁ p₂ ht₁ h₂ hs₂ _ => ?_)
  have hscopes : p₂.1.scopes = (p.1.scopes.child scope).2 := hs₂.trans hs₁
  have hinside : IsInside source (ts ++ [t₁]) [] p.1.scopes p.1.scopes.scopes.size start p₂ :=
    ⟨by simpa using h₂, by simp [hscopes, ScopeTree.size_child],
      hscopes ▸ p.1.scopes.extends_child scope, Or.inr .nil⟩
  refine ends_bind (ends_get ?_)
  refine ends_bind ((bindings_ends hsub hinside le_rfl _).mono ?_)
  rintro - p₃ ⟨us, h₃⟩
  refine ends_bind (ends_current ?_)
  by_cases hclose : p₃.1.tokens.current.kind = .closeParen
  · rw [if_pos hclose]
    exact ends_fail h₃.passed
  · rw [if_neg hclose]
    refine ends_bind (hsub.ends h₃.passed h₃.scope_lt fun value vs p₄ hbody h₄ => ?_)
    refine ends_bind (ends_require h₄ (by decide) fun t₂ p₅ ht₂ h₅ hs₅ hheld => ends_pure ?_)
    obtain ⟨body, hbodywf, hvs⟩ := hbody.spell
    -- a value without a space after it is no binding, but then the body would be missing
    obtain ⟨inside, hwf, htext⟩ := h₃.spell.resolve_left hclose (.body body)
      (by simpa [LetTail.isWellFormed] using hbodywf)
    refine ⟨t₁ :: (us ++ (vs ++ [t₂])), by simpa using h₅, ?_, hheld,
      hs₅ ▸ hbody.grown.trans h₃.grown⟩
    refine ⟨.letForm inside, by simpa [Expr.isWellFormed] using hwf, ?_⟩
    simp only [TokenKind.accepts, decide_eq_true_eq] at ht₁ ht₂
    simp [Expr.text, htext, LetTail.text, ht₁, ht₂, hvs]

/-! ### Forms and expressions -/

lemma form_ends (hsub : KeepsContract source sub) (h : HasPassed source ts start p)
    (hscope : scope < p.1.scopes.scopes.size) :
    Ends source start (form sub scope) p fun _ p' =>
      ∃ us, Finished source [CodeUnit.openParen] ts us start p p' := by
  refine ends_bind (ends_current ?_)
  by_cases hkind : p.1.tokens.current.kind = .identifier
  · rw [if_pos hkind]
    refine ends_bind (ends_advance h (by simp [hkind]) fun p₁ h₁ hs₁ _ => ?_)
    generalize p.1.tokens.current = head at h₁ ⊢
    have hhead : ∀ p', (∃ us, Finished source (CodeUnit.openParen :: head.text) (ts ++ [head]) us
        start p₁ p') → ∃ us, Finished source [CodeUnit.openParen] ts us start p p' := by
      rintro p' ⟨us, hus⟩
      exact ⟨head :: us, by simpa using hus.passed, by simpa [SpellAfter] using hus.spell, hus.held,
        hs₁ ▸ hus.grown⟩
    cases hop : Operator.ofName? head.text with
    | some op =>
      rw [Operator.eq_name_of_ofName? hop] at hhead
      exact (operatorForm_ends hsub op h₁ (hs₁ ▸ hscope)).mono fun _ => hhead
    | none =>
      by_cases hlet : head.text = letName
      · simp only [if_pos hlet]
        rw [hlet] at hhead
        exact (letForm_ends hsub h₁ (hs₁ ▸ hscope)).mono fun _ => hhead
      · simp only [if_neg hlet]
        exact ends_throw h₁
  · rw [if_neg hkind]
    exact ends_fail h

lemma expressionWith_ends (hsub : KeepsContract source sub) (hp : p.1.IsReached source)
    (hscope : scope < p.1.scopes.scopes.size) :
    Ends source p (expressionWith sub scope) p fun _ p' => ∃ ts, Returned source ts p p' := by
  have h := HasPassed.refl hp
  refine ends_bind (ends_current ?_)
  have haccepts := h.accepts
  generalize hcurrent : p.1.tokens.current = token at haccepts ⊢
  cases hkind : token.kind with
  | integer =>
    cases Word.ofText? token.text with
    | some value =>
      refine ends_bind (ends_advance h (by simp [hcurrent, hkind]) fun p₁ h₁ hs₁ hheld => ?_)
      have hword := Token.isInteger_text haccepts hkind
      refine ends_pure ⟨[token], by simpa [hcurrent] using h₁, ⟨.integer token.text, ?_⟩, hheld,
        hs₁ ▸ .refl _⟩
      simpa [Expr.isWellFormed, Expr.text] using hword
    | none => exact ends_fail h
  | identifier =>
    refine ends_bind (ends_advance h (by simp [hcurrent, hkind]) fun p₁ h₁ hs₁ hheld => ?_)
    have hname := Token.isIdentifier_text haccepts hkind
    refine ends_lookup h₁ fun value => ⟨[token], by simpa [hcurrent] using h₁,
      ⟨.name token.text, ?_⟩, hheld, hs₁ ▸ .refl _⟩
    simpa [Expr.isWellFormed, Expr.text] using hname
  | openParen =>
    refine ends_bind (ends_advance h (by simp [hcurrent, hkind]) fun p₁ h₁ hs₁ _ => ?_)
    have htext := Token.text_eq_openParen haccepts hkind
    refine (form_ends hsub h₁ (hs₁ ▸ hscope)).mono ?_
    rintro value p₂ ⟨us, hus⟩
    refine ⟨token :: us, by simpa [hcurrent] using hus.passed, ?_, hus.held, hs₁ ▸ hus.grown⟩
    simpa [Spell, SpellAfter, htext] using hus.spell
  | endOfFile | closeParen | space => exact ends_fail h

/-- Counting a call passes nothing. -/
lemma nested_ends {limit : Nat} {x : AccountM Int} (hp : p.1.IsReached source)
    (hscope : scope < p.1.scopes.scopes.size)
    (h : Ends source (enter scope p) x (enter scope p) fun _ p' =>
      ∃ ts, Returned source ts (enter scope p) p') :
    Ends source p (nested limit scope x) p fun _ p' => ∃ ts, Returned source ts p p' := by
  have henter := HasPassed.enter hp hscope
  rw [Ends, nested_apply]
  by_cases hdepth : limit < (enter scope p).2.depth
  · rw [if_pos hdepth]
    exact ⟨[], henter⟩
  · rw [if_neg hdepth]
    rw [Ends] at h
    cases hx : x (enter scope p) with
    | ok value p' =>
      obtain ⟨ts, hts⟩ : ∃ ts, Returned source ts (enter scope p) p' := by simpa only [hx] using h
      exact ⟨ts, (henter.trans hts.passed).leave, hts.spell, hts.held, hts.grown⟩
    | error e p' =>
      obtain ⟨ts, hts⟩ : ∃ ts, HasPassed source ts (enter scope p) p' := by simpa only [hx] using h
      exact ⟨ts, (henter.trans hts).leave⟩

end Forms

/-- Whatever the limit and the allowance are, the contract is kept. -/
theorem expression_keepsContract (source : Text) (limit allowance : Nat) :
    KeepsContract source (expression limit allowance) := by
  induction allowance with
  | zero => exact fun p scope hp hscope => nested_ends hp hscope (ends_throw (.refl hp))
  | succ allowance ih =>
    exact fun p scope hp hscope => nested_ends hp hscope (expressionWith_ends ih hp hscope)

/-! ### Loops -/

/-- A loop of rounds ends where a round finds nothing, or where one fails. -/
inductive Loops (x : AccountM Bool) :
    Evaluation × Account → EStateM.Result Error (Evaluation × Account) Unit → Prop
  | done {p p' : Evaluation × Account} (h : x p = .ok false p') : Loops x p (.ok () p')
  | fails {p p' : Evaluation × Account} {e : Error} (h : x p = .error e p') :
    Loops x p (.error e p')
  | again {p p' : Evaluation × Account} {r : EStateM.Result Error (Evaluation × Account) Unit}
    (h : x p = .ok true p') (hrest : Loops x p' r) : Loops x p r

section Loops

variable {sub : Nat → AccountM Int}

lemma round_of_size_eq_zero (h : p.1.tokens.size = 0) (hp : p.1.IsReached source) :
    round sub scope p = .ok false p := by
  have hkind : p.1.tokens.current.kind ≠ .identifier := by
    intro hkind
    have hname := Token.isIdentifier_text (HasPassed.refl hp).accepts hkind
    have hnil : p.1.tokens.current.text = [] := by
      rw [TokenCursor.size] at h
      exact List.length_eq_zero_iff.mp (by omega)
    rw [hnil] at hname
    cases hname
  simp only [round, bind_apply, step_apply, Evaluation.current_apply, if_neg hkind]
  rfl

lemma exists_passed_of_round (hsub : KeepsContract source sub) (hp : p.1.IsReached source)
    (hscope : scope < p.1.scopes.scopes.size) (h : round sub scope p = .ok true p') :
    ∃ ts, 3 ≤ ts.length ∧ HasPassed source ts p p' ∧ scope < p'.1.scopes.scopes.size := by
  -- no scope has to be kept
  have hinside : IsInside source [] [] ⟨#[]⟩ scope p p :=
    ⟨.refl hp, hscope, ⟨by simp, by simp⟩, Or.inr .nil⟩
  have hends := round_ends hsub hinside (by simp)
  rw [Ends, h] at hends
  obtain ⟨ts, hts, hinside'⟩ := hends
  exact ⟨ts, hts rfl, hinside'.passed, hinside'.scope_lt⟩

/-- The loop of a `let` comes to an end, which no number of rounds that is at least the number of
units left keeps it from. -/
theorem bindings_loops (hsub : KeepsContract source sub) (hp : p.1.IsReached source)
    (hscope : scope < p.1.scopes.scopes.size) {count : Nat} (hcount : p.1.tokens.size ≤ count) :
    Loops (round sub scope) p (bindings sub scope count p) := by
  induction count generalizing p with
  | zero => exact .done (round_of_size_eq_zero (by omega) hp)
  | succ count ih =>
    rw [bindings, bind_apply]
    cases hround : round sub scope p with
    | error e p' => exact .fails hround
    | ok found p' =>
      cases found with
      | false => exact .done hround
      | true =>
        obtain ⟨ts, hts, hpassed, hscope'⟩ := exists_passed_of_round hsub hp hscope hround
        have hsize := hpassed.size_le
        exact .again hround (ih hpassed.reached hscope' (by omega))

end Loops

/-! ### The contract -/

/-- A call for an expression, in any state that steps have led to, whether a token is held back or
not, and whatever is in the account. It gives what the evaluator gives: the limit refuses what is
nested too deep, and no other allowance is needed. If the call returns, then it has moved past the
tokens of one expression, at least one, and holds none back; the depth is as before, and the scope
and those around it answer as before for all names. Whether it returns or fails, none of the tokens
that it has moved past is the end of the input, and the calls that it has made are all in states and
scopes of the same kind. A round of the loop of a `let` that binds a name passes at least three
tokens, and the loop comes to an end. -/
theorem expression_contract {s : Evaluation} (hs : s.IsReached source)
    (hscope : scope < s.scopes.scopes.size) (c : Account) {limit allowance : Nat}
    (hallowance : limit ≤ c.depth + allowance) :
    let call := expression limit allowance
    forget (call scope (s, c)) = Evaluation.expression limit (limit - c.depth) scope s ∧
    (∀ value p', call scope (s, c) = .ok value p' →
      (∃ ts, ts ≠ [] ∧ HasPassed source ts (s, c) p' ∧
        ∃ e : Expr, e.isWellFormed ∧ Token.texts ts = e.text) ∧
      p'.1.tokens.held = none ∧ p'.2.depth = c.depth ∧
      ∀ a ∈ s.scopes.path scope, ∀ name, p'.1.answer a name = s.answer a name) ∧
    (∀ e p', call scope (s, c) = .error e p' → ∃ ts, HasPassed source ts (s, c) p') ∧
    (∀ p', round call scope (s, c) = .ok true p' →
      ∃ ts, 3 ≤ ts.length ∧ HasPassed source ts (s, c) p') ∧
    ∀ count ≥ s.tokens.size,
      forget (bindings call scope count (s, c)) =
        Evaluation.bindings (Evaluation.expression limit (limit - c.depth)) scope count s ∧
      Loops (round call scope) (s, c) (bindings call scope count (s, c)) := by
  intro call
  have hcall : KeepsContract source call := expression_keepsContract source limit allowance
  have hends := hcall (s, c) scope hs hscope
  have hagrees : ∀ scope, Agrees c.depth (call scope) _ := agrees_expression hallowance
  obtain ⟨hforget, hdepth⟩ := hagrees scope (s, c) rfl
  refine ⟨hforget, fun value p' h => ?_, fun e p' h => ?_, fun p' h => ?_, fun count hcount => ?_⟩
  · rw [Ends, h] at hends
    obtain ⟨ts, hts⟩ := hends
    refine ⟨⟨ts, hts.spell.ne_nil, hts.passed, hts.spell⟩, hts.held, hdepth value p' h, ?_⟩
    intro a ha name
    have hlt : a < s.scopes.scopes.size := hs.isWellFormed.lt_of_mem_path hscope ha
    rw [Evaluation.answer_eq, Evaluation.answer_eq, hts.grown.lookup?_eq hs.isWellFormed hlt]
  · rwa [Ends, h] at hends
  · obtain ⟨ts, hts, hpassed, -⟩ := exists_passed_of_round hcall hs hscope h
    exact ⟨ts, hts, hpassed⟩
  · exact ⟨(agrees_bindings hagrees scope count (s, c) rfl).1,
      bindings_loops hcall hs hscope hcount⟩

/-- The body of a `let` whose closing parenthesis is held back. -/
theorem expression_contract_body :
    ∃ s : Evaluation, s.IsReached "(let x 1 x)" ∧
      s.tokens = ⟨⟨11, []⟩, ⟨.identifier, "x", 9⟩, some ⟨.closeParen, ")", 10⟩⟩ ∧
      ∃ p', expression 2 1 1 (s, ⟨1, [], []⟩) = .ok 1 p' ∧ p'.1.tokens.held = none ∧
        p'.2.depth = 1 ∧ p'.1.answer 1 "x" = s.answer 1 "x" ∧
        ∃ ts, ts ≠ [] ∧ HasPassed "(let x 1 x)" ts (s, ⟨1, [], []⟩) p' := by
  have hstart : Evaluation.IsReached "(let x 1 x)"
      ⟨⟨⟨1, "let x 1 x)"⟩, ⟨.openParen, "(", 0⟩, none⟩, .root⟩ := .start (by decide +kernel)
  have hhead := hstart.advance.advance
  have hvalue := (@IsReached.newScope _ _ hhead 0 (by decide +kernel)).advance.peek.advance.advance
  have hbody := (@IsReached.define _ _ hvalue.advance 1 (by decide +kernel) "x" 1).advance.peek
  obtain ⟨s, hs, hstate⟩ : ∃ s, Evaluation.IsReached "(let x 1 x)" s ∧
      s = ⟨⟨⟨11, []⟩, ⟨.identifier, "x", 9⟩, some ⟨.closeParen, ")", 10⟩⟩,
        ⟨#[⟨[0], []⟩, ⟨[1, 0], [("x", 1)]⟩]⟩⟩ := ⟨_, hbody, by decide +kernel⟩
  subst hstate
  obtain ⟨-, hreturns, -⟩ :=
    expression_contract hs (by decide : 1 < 2) ⟨1, [], []⟩ (by decide : 2 ≤ 1 + 1)
  obtain ⟨⟨ts, hts, hpassed, -⟩, hheld, hdepth, hanswer⟩ := hreturns 1 _ rfl
  exact ⟨_, hs, rfl, _, rfl, hheld, hdepth, hanswer 1 (by decide) "x", ts, hts, hpassed⟩

end Account

end Sprig
