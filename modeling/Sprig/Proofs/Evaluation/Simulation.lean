import Sprig.Proofs.Evaluation.Steps

/-!
# Evaluation by a reader

`evaluate` gives what a reader gives that is fed the tokens of the text. There is one lemma for
each function of the evaluator: called where the reader starts a part, it fails with the outcome of
the reader, or returns where the reader has finished that part, with nothing held back and all older
scopes as they were.
-/

namespace Sprig

namespace Evaluation

variable {limit : Nat} {outcome : Except Error Int} {scope : Nat} {env : Bindings}
  {frames : List Frame} {l : Lexer} {s : Evaluation}

/-- An expression has been read, from `s` at `l` on, and has a value. -/
structure Returns (limit : Nat) (outcome : Except Error Int) (frames : List Frame) (l : Lexer)
    (s : Evaluation) (value : Int) (s' : Evaluation) : Prop where
  word : IsWord value
  wellFormed : s'.scopes.IsWellFormed
  grown : s'.scopes.Extends s.scopes
  held : s'.tokens.held = none
  placed : ∃ l', l'.rest.length < l.rest.length ∧
    Placed limit outcome ⟨.value (.ok value), frames⟩ l' s'

/-- An evaluator of the parts of forms at one depth does what the reader does. -/
def Simulates (limit : Nat) (sub : Nat → EvalM Int) (depth : Nat) : Prop :=
  ∀ (outcome : Except Error Int) (scope : Nat) (env : Bindings) (frames : List Frame) (l : Lexer)
    (s : Evaluation), frames.length = depth → Scoped scope env s.scopes →
    Placed limit outcome ⟨.expression env, frames⟩ l s →
      Yields outcome (sub scope) s (Returns limit outcome frames l s)

lemma isWord_apply (op : Operator) (m n : Int) : IsWord (op.apply m n) := by
  cases op with
  | add => exact Word.isWord_wrap (m + n)
  | mult => exact Word.isWord_wrap (m * n)

/-! ### Operators -/

lemma closeOperator_yields {op : Operator} {m n : Int} {post : Unit → Evaluation → Prop}
    (h : Placed limit outcome ⟨.value (.ok n), .right op m :: frames⟩ l s)
    (hpost : ∀ l' s', s'.scopes = s.scopes → s'.tokens.held = none →
      l'.rest.length < l.rest.length →
      Placed limit outcome ⟨.value (.ok (op.apply m n)), frames⟩ l' s' → post () s') :
    Yields outcome (closeOperator op) s post := by
  obtain ⟨l', hnext⟩ := h.stands.exists_next
  unfold closeOperator
  apply yields_bind
  apply yields_current
  generalize ht : s.tokens.current = t at hnext ⊢
  cases hkind : t.kind with
  | closeParen =>
    refine h.yields_advance hnext (by simp [hkind]) ?_ (hpost l')
    simp [Reader.feed, Reader.leave, Reader.demand, Except.bind, hkind]
  | space =>
    have hfeed : Reader.feed limit ⟨.value (.ok n), .right op m :: frames⟩ t =
        .ok ⟨.extra op t, frames⟩ := by
      simp [Reader.feed, Reader.leave, Except.bind, hkind]
    refine yields_bind (h.yields_peek hnext (by simp [hkind]) hfeed ?_)
    intro u l'' s' hnext' _ h'
    have hrun : Reader.run limit ⟨.extra op t, frames⟩ l' = outcome := by
      rw [← h.run, Reader.run_of_ok hnext (by simp [hkind]) hfeed]
    show outcome = _
    rw [← hrun]
    exact Reader.run_of_error hnext' rfl
  | openParen | identifier | integer | endOfFile =>
    refine h.yields_fail hnext ?_
    simp [Reader.feed, Reader.leave, Reader.demand, Except.bind, hkind]

lemma operatorForm_yields {sub : Nat → EvalM Int} {op : Operator}
    (hsub : Simulates limit sub (frames.length + 1)) (hscoped : Scoped scope env s.scopes)
    (h : Placed limit outcome ⟨.word env op.name, frames⟩ l s) :
    Yields outcome (operatorForm sub op scope) s (Returns limit outcome frames l s) := by
  obtain ⟨l₁, hnext⟩ := h.stands.exists_next
  have hfeed : Reader.feed limit ⟨.word env op.name, frames⟩ s.tokens.current =
      Reader.demand .space (.afterOperator op) s.tokens.current
        ⟨.expression env, .left op env :: frames⟩ := by
    simp [Reader.feed]
  unfold operatorForm
  refine yields_bind (h.yields_require hnext (by decide) hfeed ?_)
  intro s₁ hs₁ _ hl₁ h₁
  have hscoped₁ : Scoped scope env s₁.scopes := hs₁ ▸ hscoped
  refine yields_bind ((hsub _ _ _ _ _ _ rfl hscoped₁ h₁).mono ?_)
  intro m s₂ hm
  obtain ⟨l₂, hl₂, h₂⟩ := hm.placed
  obtain ⟨l₃, hnext₃⟩ := h₂.stands.exists_next
  refine yields_bind (h₂.yields_require hnext₃ (by decide) rfl ?_)
  intro s₃ hs₃ _ hl₃ h₃
  have hscoped₃ : Scoped scope env s₃.scopes :=
    hs₃ ▸ hscoped₁.of_extends hm.wellFormed hm.grown
  refine yields_bind ((hsub _ _ _ _ _ _ rfl hscoped₃ h₃).mono ?_)
  intro n s₄ hn
  obtain ⟨l₄, hl₄, h₄⟩ := hn.placed
  refine yields_bind (closeOperator_yields h₄ fun l₅ s₅ hs₅ hheld hl₅ h₅ => yields_pure ?_)
  refine ⟨isWord_apply op m n, hs₅ ▸ hn.wellFormed, ?_, hheld, l₅, by omega, h₅⟩
  rw [hs₅, ← hs₁]
  exact hn.grown.trans (hs₃ ▸ hm.grown)

/-! ### Bindings -/

/-- Before a closing parenthesis the body of a `let` is missing, whether a value ends there or a
space has followed it. -/
lemma run_binding_of_closeParen {name : Text} {value : Int} {l' : Lexer} {t : Token}
    (hnext : l.next = .ok (t, l')) (hkind : t.kind = .closeParen) :
    Reader.run limit ⟨.value (.ok value), .binding env name :: frames⟩ l =
      Reader.run limit ⟨.inside ((name, value) :: env), frames⟩ l := by
  rw [Reader.run_of_error hnext (e := .malformed (.noBody t)),
    Reader.run_of_error hnext (e := .malformed (.noBody t))]
  · simp [Reader.feed, hkind]
  · simp [Reader.feed, Reader.leave, Except.bind, hkind]

/-- Some bindings have been read, and the names in them are bound in the scope that is built. -/
structure Binds (limit : Nat) (outcome : Except Error Int) (scope : Nat) (frames : List Frame)
    (base : ScopeTree) (l' : Lexer) (s' : Evaluation) : Prop where
  grown : s'.scopes.Extends base
  inside : ∃ env, Scoped scope env s'.scopes ∧ Placed limit outcome ⟨.inside env, frames⟩ l' s'

lemma binding_yields {sub : Nat → EvalM Int} {base : ScopeTree} {t : Token} {l₁ : Lexer}
    (hsub : Simulates limit sub (frames.length + 1)) (hscoped : Scoped scope env s.scopes)
    (hgrown : s.scopes.Extends base) (hscope : base.scopes.size ≤ scope)
    (h : Placed limit outcome ⟨.inside env, frames⟩ l s) (hnext : l.next = .ok (t, l₁))
    (hkind : t.kind = .identifier)
    (hbound : ∀ u l₂, l₁.next = .ok (u, l₂) → u.kind ≠ .closeParen) :
    Yields outcome (binding sub scope t.text) s fun _ s' =>
      ∃ l', l'.rest.length < l.rest.length ∧ Binds limit outcome scope frames base l' s' := by
  unfold binding
  have hfeed : Reader.feed limit ⟨.inside env, frames⟩ t = .ok ⟨.name env t.text, frames⟩ := by
    simp [Reader.feed, hkind]
  refine yields_bind (h.yields_advance hnext (by simp [hkind]) hfeed ?_)
  intro s₁ hs₁ _ hl₁ h₁
  apply yields_bind
  apply yields_current
  obtain ⟨l₂, hnext₁⟩ := h₁.stands.exists_next
  have hopen := hbound _ _ hnext₁
  generalize s₁.tokens.current = u at hnext₁ hopen ⊢
  by_cases hspace : u.kind = .space
  · have hfeed₁ : Reader.feed limit ⟨.name env t.text, frames⟩ u =
        .ok ⟨.expression env, .binding env t.text :: frames⟩ := by
      simp [Reader.feed, hspace]
    rw [if_pos hspace]
    refine yields_bind (h₁.yields_advance hnext₁ (by simp [hspace]) hfeed₁ ?_)
    intro s₂ hs₂ _ hl₂ h₂
    have hs₂₀ : s₂.scopes = s.scopes := hs₂.trans hs₁
    have hscoped₂ : Scoped scope env s₂.scopes := hs₂₀ ▸ hscoped
    refine yields_bind ((hsub _ _ _ _ _ _ rfl hscoped₂ h₂).mono ?_)
    intro value s₃ hvalue
    obtain ⟨l₃, hl₃, h₃⟩ := hvalue.placed
    have hscoped₃ := hscoped₂.of_extends hvalue.wellFormed hvalue.grown
    have hgrown₃ : s₃.scopes.Extends base := hvalue.grown.trans (hs₂₀ ▸ hgrown)
    -- binding the name changes the scope that is built, and nothing that the base has
    refine yields_bind (show Yields outcome (define scope t.text value) s₃ _ from ?_)
    have hscoped₄ : Scoped scope ((t.text, value) :: env)
        (s₃.scopes.define scope t.text value) :=
      ⟨hscoped₃.wellFormed.define _ _ _, hscoped₃.holds.define hscoped₃.wellFormed _ _,
        hscoped₃.words.cons hvalue.word _⟩
    have hgrown₄ := hgrown₃.define hscope t.text value
    have h₄ : Placed limit outcome ⟨.value (.ok value), .binding env t.text :: frames⟩ l₃
        { s₃ with scopes := s₃.scopes.define scope t.text value } := ⟨h₃.stands, h₃.run⟩
    apply yields_bind
    apply yields_current
    obtain ⟨l₄, hnext₄⟩ := h₄.stands.exists_next
    by_cases hclose : s₃.tokens.current.kind = .closeParen
    · rw [if_pos hclose]
      refine yields_pure ⟨l₃, by omega, hgrown₄, _, hscoped₄, h₄.stands, ?_⟩
      rw [← run_binding_of_closeParen hnext₄ hclose]
      exact h₄.run
    · rw [if_neg hclose]
      have hfeed₄ : Reader.feed limit ⟨.value (.ok value), .binding env t.text :: frames⟩
          s₃.tokens.current = Reader.demand .space (.afterValue t.text) s₃.tokens.current
            ⟨.inside ((t.text, value) :: env), frames⟩ := by
        simp [Reader.feed, Reader.leave, Except.bind, hclose]
      refine h₄.yields_require hnext₄ (by decide) hfeed₄ ?_
      intro s₅ hs₅ _ hl₅ h₅
      exact ⟨l₄, by omega, hs₅ ▸ hgrown₄, _, hs₅ ▸ hscoped₄, h₅⟩
  · rw [if_neg hspace]
    exact h₁.yields_fail hnext₁ (by simp [Reader.feed, hopen, hspace])

/-- All bindings of a `let` are read if as many are allowed as there are units. -/
lemma bindings_yields {sub : Nat → EvalM Int} {base : ScopeTree}
    (hsub : Simulates limit sub (frames.length + 1)) (hscope : base.scopes.size ≤ scope)
    (count : Nat) (hcount : l.rest.length ≤ count) (hscoped : Scoped scope env s.scopes)
    (hgrown : s.scopes.Extends base) (h : Placed limit outcome ⟨.inside env, frames⟩ l s) :
    Yields outcome (bindings sub scope count) s fun _ s' =>
      ∃ l', l'.rest.length ≤ l.rest.length ∧ Reader.IsBody l' ∧
        Binds limit outcome scope frames base l' s' := by
  induction count generalizing env l s with
  | zero =>
    refine yields_pure ⟨l, le_rfl, fun t l' hnext hkind => ?_, hgrown, env, hscoped, h⟩
    have := Lexer.length_rest_lt_of_next hnext (by simp [hkind])
    omega
  | succ count ih =>
    unfold bindings
    apply yields_bind
    apply yields_current
    obtain ⟨l₁, hnext⟩ := h.stands.exists_next
    generalize s.tokens.current = t at hnext ⊢
    by_cases hkind : t.kind = .identifier
    · rw [if_pos hkind]
      have hfeed : Reader.feed limit ⟨.inside env, frames⟩ t =
          .ok ⟨.name env t.text, frames⟩ := by
        simp [Reader.feed, hkind]
      refine yields_bind (h.yields_peek hnext (by simp [hkind]) hfeed ?_)
      intro u l₂ s₁ hnext₁ hs₁ h₁
      have hscoped₁ : Scoped scope env s₁.scopes := hs₁ ▸ hscoped
      have hgrown₁ : s₁.scopes.Extends base := hs₁ ▸ hgrown
      by_cases hclose : u.kind = .closeParen
      · rw [if_pos hclose]
        refine yields_pure ⟨l, le_rfl, fun t' l' hnext' _ => ?_, hgrown₁, env, hscoped₁, h₁⟩
        cases hnext.symm.trans hnext'
        exact ⟨u, l₂, hnext₁, hclose⟩
      · rw [if_neg hclose]
        have hbound : ∀ u' l', l₁.next = .ok (u', l') → u'.kind ≠ .closeParen := by
          intro u' l' hnext'
          cases hnext₁.symm.trans hnext'
          exact hclose
        refine yields_bind ((binding_yields hsub hscoped₁ hgrown₁ hscope h₁ hnext hkind
          hbound).mono ?_)
        intro _ s₂ h₂
        obtain ⟨l₃, hl₃, hgrown₂, env₂, hscoped₂, hplaced₂⟩ := h₂
        refine (ih (by omega) hscoped₂ hgrown₂ hplaced₂).mono ?_
        intro _ s₃ h₃
        obtain ⟨l₄, hl₄, hbody, hbinds⟩ := h₃
        exact ⟨l₄, by omega, hbody, hbinds⟩
    · rw [if_neg hkind]
      refine yields_pure ⟨l, le_rfl, fun t' l' hnext' hkind' => ?_, hgrown, env, hscoped, h⟩
      cases hnext.symm.trans hnext'
      exact absurd hkind' hkind

/-! ### Forms -/

lemma letForm_yields {sub : Nat → EvalM Int}
    (hsub : Simulates limit sub (frames.length + 1)) (hscoped : Scoped scope env s.scopes)
    (h : Placed limit outcome ⟨.word env letName, frames⟩ l s) :
    Yields outcome (letForm sub scope) s (Returns limit outcome frames l s) := by
  obtain ⟨l₁, hnext⟩ := h.stands.exists_next
  unfold letForm
  refine yields_bind (show Yields outcome (newScope scope) s _ from ?_)
  rw [Yields, newScope_apply, ScopeTree.fst_child]
  dsimp only
  generalize hs₁ : ({ s with scopes := (s.scopes.child scope).2 } : Evaluation) = s₁
  have hscopes₁ : s₁.scopes = (s.scopes.child scope).2 := by rw [← hs₁]
  have h₁ : Placed limit outcome ⟨.word env letName, frames⟩ l s₁ := by
    rw [← hs₁]
    exact ⟨h.stands, h.run⟩
  have hscoped₁ : Scoped s.scopes.scopes.size env s₁.scopes := by
    rw [hscopes₁]
    exact ⟨hscoped.wellFormed.child hscoped.holds.1, hscoped.holds.child, hscoped.words⟩
  have hgrown₁ : s₁.scopes.Extends s.scopes := hscopes₁ ▸ ScopeTree.extends_child _ _
  have hfeed : ∀ t, Reader.feed limit ⟨.word env letName, frames⟩ t =
      Reader.demand .space .afterLet t ⟨.inside env, frames⟩ := fun t => by
    simp [Reader.feed, show Operator.ofName? letName = none by decide]
  refine yields_bind (h₁.yields_require hnext (by decide) (hfeed _) ?_)
  intro s₂ hs₂ _ hl₁ h₂
  refine yields_bind (show Yields outcome get s₂ _ from ?_)
  rw [Yields, get_apply]
  dsimp only
  have hgrown₂ : s₂.scopes.Extends s.scopes := hs₂ ▸ hgrown₁
  have hbindings := bindings_yields hsub le_rfl s₂.tokens.size h₂.stands.size_eq.ge
    (hs₂ ▸ hscoped₁) hgrown₂ h₂
  refine yields_bind (hbindings.mono ?_)
  intro _ s₃ h₃
  obtain ⟨l₃, hl₃, hbody, hgrown₃, env₃, hscoped₃, hplaced₃⟩ := h₃
  apply yields_bind
  apply yields_current
  obtain ⟨l₄, hnext₃⟩ := hplaced₃.stands.exists_next
  by_cases hclose : s₃.tokens.current.kind = .closeParen
  · rw [if_pos hclose]
    exact hplaced₃.yields_fail hnext₃ (by simp [Reader.feed, hclose])
  · rw [if_neg hclose]
    have hplaced₃' : Placed limit outcome ⟨.expression env₃, .body :: frames⟩ l₃ s₃ :=
      ⟨hplaced₃.stands, by rw [← Reader.run_inside_of_isBody hbody hnext₃ hclose, hplaced₃.run]⟩
    refine yields_bind ((hsub _ _ _ _ _ _ rfl hscoped₃ hplaced₃').mono ?_)
    intro value s₅ hvalue
    obtain ⟨l₅, hl₅, h₅⟩ := hvalue.placed
    obtain ⟨l₆, hnext₅⟩ := h₅.stands.exists_next
    refine yields_bind (h₅.yields_require hnext₅ (by decide) rfl ?_)
    intro s₆ hs₆ hheld hl₆ h₆
    refine yields_pure ⟨hvalue.word, hs₆ ▸ hvalue.wellFormed, ?_, hheld, l₆, by omega, h₆⟩
    rw [hs₆]
    exact hvalue.grown.trans hgrown₃

lemma form_yields {sub : Nat → EvalM Int} (hsub : Simulates limit sub (frames.length + 1))
    (hscoped : Scoped scope env s.scopes) (h : Placed limit outcome ⟨.head env, frames⟩ l s) :
    Yields outcome (form sub scope) s (Returns limit outcome frames l s) := by
  obtain ⟨l₁, hnext⟩ := h.stands.exists_next
  unfold form
  apply yields_bind
  apply yields_current
  generalize s.tokens.current = t at hnext ⊢
  by_cases hkind : t.kind = .identifier
  · have hfeed : Reader.feed limit ⟨.head env, frames⟩ t = .ok ⟨.word env t.text, frames⟩ := by
      simp [Reader.feed, hkind]
    rw [if_pos hkind]
    refine yields_bind (h.yields_advance hnext (by simp [hkind]) hfeed ?_)
    intro s₁ hs₁ _ hl₁ h₁
    have hscoped₁ : Scoped scope env s₁.scopes := hs₁ ▸ hscoped
    have hlater : ∀ value s', Returns limit outcome frames l₁ s₁ value s' →
        Returns limit outcome frames l s value s' := fun value s' h' => by
      obtain ⟨l', hl', hplaced⟩ := h'.placed
      exact ⟨h'.word, h'.wellFormed, hs₁ ▸ h'.grown, h'.held, l', by omega, hplaced⟩
    cases hop : Operator.ofName? t.text with
    | some op =>
      rw [Operator.eq_name_of_ofName? hop] at h₁
      exact (operatorForm_yields hsub hscoped₁ h₁).mono hlater
    | none =>
      dsimp only
      by_cases hlet : t.text = letName
      · rw [hlet] at h₁
        rw [if_pos hlet]
        exact (letForm_yields hsub hscoped₁ h₁).mono hlater
      · rw [if_neg hlet]
        obtain ⟨l₂, hnext₁⟩ := h₁.stands.exists_next
        exact h₁.outcome_of_error hnext₁ (by simp [Reader.feed, hop, hlet])
  · rw [if_neg hkind]
    exact h.yields_fail hnext (by simp [Reader.feed, hkind])

/-! ### Expressions -/

/-- A name that has just been read has the value that the bindings give it. -/
lemma lookup_yields {name : Text} (hscoped : Scoped scope env s.scopes)
    (h : Placed limit outcome ⟨.value (env.find name), frames⟩ l s) :
    Yields outcome (lookup scope name) s fun value s' =>
      s' = s ∧ IsWord value ∧ Placed limit outcome ⟨.value (.ok value), frames⟩ l s := by
  have hlookup := hscoped.holds.2 name
  rw [Yields, lookup_apply]
  cases hvalue : s.scopes.lookup? scope name with
  | some value =>
    have hfind : env.find name = .ok value := by simp [Bindings.find, ← hlookup, hvalue]
    rw [hfind] at h
    exact ⟨rfl, hscoped.words name value (hlookup ▸ hvalue), h⟩
  | none =>
    have hfind : env.find name = .error (.unboundName name) := by
      simp [Bindings.find, ← hlookup, hvalue]
    rw [hfind] at h
    obtain ⟨l', hnext⟩ := h.stands.exists_next
    exact h.outcome_of_error hnext rfl

lemma expressionWith_yields {sub : Nat → EvalM Int} (hdepth : frames.length < limit)
    (hsub : Simulates limit sub (frames.length + 1)) (hscoped : Scoped scope env s.scopes)
    (h : Placed limit outcome ⟨.expression env, frames⟩ l s) :
    Yields outcome (expressionWith sub scope) s (Returns limit outcome frames l s) := by
  obtain ⟨l₁, hnext⟩ := h.stands.exists_next
  unfold expressionWith
  apply yields_bind
  apply yields_current
  generalize s.tokens.current = t at hnext ⊢
  have hfeed : Reader.feed limit ⟨.expression env, frames⟩ t = Reader.enter limit env frames t :=
    rfl
  simp only [Reader.enter, if_neg (not_le.mpr hdepth)] at hfeed
  cases hkind : t.kind with
  | integer =>
    simp only [hkind] at hfeed ⊢
    cases hvalue : Word.ofText? t.text with
    | some value =>
      rw [hvalue] at hfeed
      refine yields_bind (h.yields_advance hnext (by simp [hkind]) hfeed ?_)
      intro s₁ hs₁ hheld hl₁ h₁
      exact yields_pure ⟨Word.isWord_of_ofText? hvalue, hs₁ ▸ hscoped.wellFormed,
        hs₁ ▸ ScopeTree.Extends.refl _, hheld, l₁, hl₁, h₁⟩
    | none =>
      rw [hvalue] at hfeed
      exact h.yields_fail hnext hfeed
  | identifier =>
    simp only [hkind] at hfeed ⊢
    refine yields_bind (h.yields_advance hnext (by simp [hkind]) hfeed ?_)
    intro s₁ hs₁ hheld hl₁ h₁
    refine (lookup_yields (hs₁ ▸ hscoped) h₁).mono ?_
    rintro value s₂ ⟨rfl, hword, h₂⟩
    exact ⟨hword, hs₁ ▸ hscoped.wellFormed, hs₁ ▸ ScopeTree.Extends.refl _, hheld, l₁, hl₁, h₂⟩
  | openParen =>
    simp only [hkind] at hfeed ⊢
    refine yields_bind (h.yields_advance hnext (by simp [hkind]) hfeed ?_)
    intro s₁ hs₁ _ hl₁ h₁
    refine (form_yields hsub (hs₁ ▸ hscoped) h₁).mono ?_
    intro value s₂ h₂
    obtain ⟨l₂, hl₂, hplaced⟩ := h₂.placed
    exact ⟨h₂.word, h₂.wellFormed, hs₁ ▸ h₂.grown, h₂.held, l₂, by omega, hplaced⟩
  | endOfFile | closeParen | space =>
    simp only [hkind] at hfeed ⊢
    exact h.yields_fail hnext hfeed

/-- Every level of nesting spends one of the allowance, as every frame takes one of the limit. -/
theorem expression_simulates (limit allowance : Nat) (depth : Nat)
    (h : depth + allowance = limit) : Simulates limit (expression limit allowance) depth := by
  induction allowance generalizing depth with
  | zero =>
    intro outcome scope env frames l s hframes _ hplaced
    obtain ⟨l', hnext⟩ := hplaced.stands.exists_next
    have hlimit : limit ≤ frames.length := by omega
    exact hplaced.outcome_of_error hnext (by simp [Reader.feed, Reader.enter, hlimit])
  | succ allowance ih =>
    intro outcome scope env frames l s hframes hscoped hplaced
    have hsub := ih (frames.length + 1) (by omega)
    exact expressionWith_yields (by omega) hsub hscoped hplaced

/-! ### Whole texts -/

lemma isExact_of_isWord {value : Int} (h : IsWord value) : isExact value := by
  simp only [IsWord, Word.least, Word.greatest] at h
  simp only [isExact, decide_eq_true_eq]
  omega

lemma program_yields (h : Placed limit outcome Reader.start l s) (hs : s.scopes = .root) :
    Yields outcome (program limit) s fun value _ => outcome = .ok value := by
  have hscoped : Scoped 0 [] ScopeTree.root :=
    ⟨ScopeTree.isWellFormed_root, ScopeTree.holds_root, Bindings.areWords_nil⟩
  -- what follows the space that may come first
  have hrest : ∀ l₁ s₁, s₁.scopes = .root → Placed limit outcome ⟨.expression [], []⟩ l₁ s₁ →
      Yields outcome (expression limit limit 0 >>= fun value => do
        let token ← current
        if token.kind = .endOfFile then
          if isExact value then return value
          else throw (.evaluation (("non-integer final result: " : Text) ++ Text.ofInt value))
        else fail (.trailing token)) s₁ fun value _ => outcome = .ok value := by
    intro l₁ s₁ hs₁ h₁
    refine yields_bind ((expression_simulates limit limit 0 (Nat.zero_add _) _ _ _ _ _ _ rfl
      (hs₁ ▸ hscoped) h₁).mono ?_)
    intro value s₂ hvalue
    obtain ⟨l₂, -, h₂⟩ := hvalue.placed
    obtain ⟨l₃, hnext⟩ := h₂.stands.exists_next
    apply yields_bind
    apply yields_current
    by_cases hkind : s₂.tokens.current.kind = .endOfFile
    · rw [if_pos hkind, if_pos (isExact_of_isWord hvalue.word)]
      refine yields_pure ?_
      have hfeed : Reader.feed limit ⟨.value (.ok value), []⟩ s₂.tokens.current =
          .ok ⟨.value (.ok value), []⟩ := by
        simp [Reader.feed, Reader.leave, Except.bind, hkind]
      rw [← h₂.run, Reader.run_of_endOfFile hnext hkind hfeed]
      rfl
    · rw [if_neg hkind]
      exact h₂.yields_fail hnext (by simp [Reader.feed, Reader.leave, Except.bind, hkind])
  obtain ⟨l₁, hnext⟩ := h.stands.exists_next
  unfold program
  apply yields_bind
  apply yields_current
  by_cases hspace : s.tokens.current.kind = .space
  · have hfeed : Reader.start.feed limit s.tokens.current = .ok ⟨.expression [], []⟩ := by
      simp [Reader.start, Reader.feed, hspace]
    simp only [hspace, if_true]
    refine yields_bind (h.yields_advance hnext (by simp [hspace]) hfeed ?_)
    intro s₁ hs₁ _ _ h₁
    exact hrest l₁ s₁ (hs₁.trans hs) h₁
  · have hfeed : Reader.feed limit ⟨.expression [], []⟩ s.tokens.current =
        Reader.start.feed limit s.tokens.current := by
      simp [Reader.start, Reader.feed, hspace]
    simp only [hspace, if_false]
    refine hrest l s hs ⟨h.stands, ?_⟩
    rw [← h.run]
    exact Reader.run_congr hnext hfeed

end Evaluation

/-- The outcome of an evaluation is that of a reader that is fed the tokens of the text. -/
theorem evaluate_eq_run (limit : Nat) (source : Text) :
    evaluate limit source = Reader.start.run limit (Lexer.ofText source) := by
  unfold evaluate
  cases hnext : (Lexer.ofText source).next with
  | error c => rw [TokenCursor.ofText_of_error hnext, Reader.run_of_fault hnext]
  | ok u =>
    obtain ⟨t, l⟩ := u
    rw [TokenCursor.ofText_of_ok hnext]
    have hplaced : Evaluation.Placed limit (Reader.start.run limit (Lexer.ofText source))
        Reader.start (Lexer.ofText source) ⟨⟨l, t, none⟩, .root⟩ := ⟨.free hnext, rfl⟩
    have hyields := Evaluation.program_yields hplaced rfl
    simp only [Evaluation.Yields] at hyields
    simp only [EStateM.run]
    split <;> simp_all

end Sprig
