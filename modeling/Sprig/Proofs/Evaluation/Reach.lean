import Sprig.Proofs.Evaluation.Account
import Sprig.Proofs.Scope.History
import Sprig.Proofs.Token.Calls

/-!
# Passing tokens

The states that an evaluation of a text can get to by steps in any order, and the tokens that are
passed between two of them. All that a function of the evaluator does is put together from steps
that pass one token or none, so whether it returns or fails there are tokens that it has passed:
they follow each other in the text, none of them is the end of the input, and they are noted.
-/

namespace Sprig

/-! ### Tokens between lexers -/

namespace Lexer

variable {l l' l'' : Lexer} {t : Token} {ts us : List Token}

/-- A lexer comes to another one by reading tokens before the end of the input. -/
inductive Passes : Lexer → List Token → Lexer → Prop where
  | nil (l : Lexer) : Passes l [] l
  | cons {l l' l'' : Lexer} {t : Token} {ts : List Token} (hnext : l.next = .ok (t, l'))
    (hkind : t.kind ≠ .endOfFile) (h : Passes l' ts l'') : Passes l (t :: ts) l''

lemma Passes.append (h : l.Passes ts l') (h' : l'.Passes us l'') : l.Passes (ts ++ us) l'' := by
  induction h with
  | nil => exact h'
  | cons hnext hkind _ ih => exact .cons hnext hkind (ih h')

lemma Passes.length_le (h : l.Passes ts l') : l'.rest.length + ts.length ≤ l.rest.length := by
  induction h with
  | nil => simp
  | cons hnext hkind _ ih =>
    have := length_rest_lt_of_next hnext hkind
    simp only [List.length_cons]
    omega

/-- A lexer is known by what it reads. -/
lemma eq_of_next {r : Token × Lexer} (h : l.next = .ok r) (h' : l'.next = .ok r) : l = l' := by
  obtain ⟨hrest, hposition, -⟩ := next_eq_ok_iff.mp h
  obtain ⟨hrest', hposition', -⟩ := next_eq_ok_iff.mp h'
  cases l
  cases l'
  simp_all

end Lexer

lemma TokenCursor.StandsAt.unique {s : TokenCursor} {l l' : Lexer} (h : s.StandsAt l)
    (h' : s.StandsAt l') : l = l' := by
  cases h with
  | free hnext =>
    cases h' with
    | free hnext' => exact Lexer.eq_of_next hnext hnext'
  | held hnext hheld =>
    cases h' with
    | held hnext' hheld' =>
      obtain rfl := Lexer.eq_of_next hheld hheld'
      exact Lexer.eq_of_next hnext hnext'

namespace Evaluation

/-! ### Steps -/

section Steps

variable {s : Evaluation} {l l' : Lexer} {t : Token}

/-- What the cursor of an evaluation does when it is moved: it stays, or it goes on by a token. -/
lemma advance_cases (h : s.tokens.StandsAt l) (hnext : l.next = .ok (t, l')) :
    (∃ e, advance s = .error e s) ∨
      ∃ tokens : TokenCursor, advance s = .ok () { s with tokens } ∧ tokens.StandsAt l' ∧
        tokens.held = none := by
  rw [advance_apply, h.advance_eq hnext]
  cases hnext' : l'.next with
  | error e => exact Or.inl ⟨_, rfl⟩
  | ok r => exact Or.inr ⟨_, rfl, .free hnext', rfl⟩

/-- What it does when the next token is looked at: it stays in any case. -/
lemma peek_cases (h : s.tokens.StandsAt l) :
    (∃ e, peek s = .error e s) ∨
      ∃ (u : Token) (tokens : TokenCursor), peek s = .ok u { s with tokens } ∧
        tokens.StandsAt l ∧ tokens.current = s.tokens.current := by
  obtain ⟨l', hnext⟩ := h.exists_next
  rw [peek_apply]
  cases hnext' : l'.next with
  | error e => exact Or.inl ⟨_, by rw [h.peek_of_error hnext hnext']⟩
  | ok r =>
    refine Or.inr ⟨r.1, _, by rw [h.peek_of_ok hnext hnext'], .held hnext hnext', rfl⟩

end Steps

/-! ### States that are reached -/

/-- The states that steps lead to, in any order, from the first token of a text on. New scopes are
made and names are bound in scopes that are there. -/
inductive IsReached (source : Text) : Evaluation → Prop
  | start {tokens : TokenCursor} (h : TokenCursor.ofText source = .ok tokens) :
    IsReached source ⟨tokens, .root⟩
  | advance {s : Evaluation} (h : IsReached source s) : IsReached source (stateAfter advance s)
  | peek {s : Evaluation} (h : IsReached source s) : IsReached source (stateAfter peek s)
  | newScope {s : Evaluation} (h : IsReached source s) {parent : Nat}
    (hparent : parent < s.scopes.scopes.size) : IsReached source (stateAfter (newScope parent) s)
  | define {s : Evaluation} (h : IsReached source s) {scope : Nat}
    (hscope : scope < s.scopes.scopes.size) (name : Text) (value : Int) :
    IsReached source (stateAfter (define scope name value) s)

namespace IsReached

variable {source : Text} {s : Evaluation}

lemma exists_standsAt (h : IsReached source s) : ∃ l, s.tokens.StandsAt l := by
  induction h with
  | start h =>
    obtain ⟨l, -, hstands⟩ := TokenCursor.isAt_ofText h
    exact ⟨l, hstands⟩
  | advance _ ih =>
    obtain ⟨l, hstands⟩ := ih
    obtain ⟨l', hnext⟩ := hstands.exists_next
    rw [stateAfter]
    rcases advance_cases hstands hnext with ⟨e, hadvance⟩ | ⟨tokens, hadvance, hstands', -⟩
    · exact ⟨l, by rwa [hadvance]⟩
    · exact ⟨l', by rwa [hadvance]⟩
  | peek _ ih =>
    obtain ⟨l, hstands⟩ := ih
    rw [stateAfter]
    rcases peek_cases hstands with ⟨e, hpeek⟩ | ⟨u, tokens, hpeek, hstands', -⟩
    · exact ⟨l, by rwa [hpeek]⟩
    · exact ⟨l, by rwa [hpeek]⟩
  | newScope _ _ ih => exact ih
  | define _ _ _ _ ih => exact ih

lemma isWellFormed (h : IsReached source s) : s.scopes.IsWellFormed := by
  induction h with
  | start => exact ScopeTree.isWellFormed_root
  | @advance s _ ih =>
    rw [stateAfter, advance_apply]
    cases s.tokens.advance <;> exact ih
  | @peek s _ ih =>
    rw [stateAfter, peek_apply]
    cases s.tokens.peek <;> exact ih
  | newScope _ hparent ih => exact ih.child hparent
  | define _ _ name value ih => exact ih.define _ name value

end IsReached

end Evaluation

/-! ### Passing tokens -/

namespace Account

open Evaluation (IsReached)

variable {α β : Type}

/-- From a state to another one that is reached, the cursor has moved past tokens, and just these
have been noted. Expressions have been called for only in states that are reached and in scopes that
were there. -/
structure HasPassed (source : Text) (ts : List Token) (p p' : Evaluation × Account) : Prop where
  reached : p'.1.IsReached source
  moved : ∃ l l', p.1.tokens.StandsAt l ∧ l.Passes ts l' ∧ p'.1.tokens.StandsAt l'
  passed : p'.2.passed = p.2.passed ++ ts
  called : ∃ calls, p'.2.calls = p.2.calls ++ calls ∧
    ∀ call ∈ calls, call.1.IsReached source ∧ call.2 < call.1.scopes.scopes.size

namespace HasPassed

variable {source : Text} {ts us : List Token} {p p' p'' : Evaluation × Account}

lemma refl (h : p.1.IsReached source) : HasPassed source [] p p where
  reached := h
  moved := by
    obtain ⟨l, hstands⟩ := h.exists_standsAt
    exact ⟨l, l, hstands, .nil l, hstands⟩
  passed := (List.append_nil _).symm
  called := ⟨[], (List.append_nil _).symm, by simp⟩

lemma trans (h : HasPassed source ts p p') (h' : HasPassed source us p' p'') :
    HasPassed source (ts ++ us) p p'' where
  reached := h'.reached
  moved := by
    obtain ⟨l, l₁, hstands, hpasses, hstands₁⟩ := h.moved
    obtain ⟨l₁', l₂, hstands₁', hpasses', hstands₂⟩ := h'.moved
    obtain rfl := hstands₁.unique hstands₁'
    exact ⟨l, l₂, hstands, hpasses.append hpasses', hstands₂⟩
  passed := by rw [h'.passed, h.passed, List.append_assoc]
  called := by
    obtain ⟨calls, hcalls, hall⟩ := h.called
    obtain ⟨calls', hcalls', hall'⟩ := h'.called
    refine ⟨calls ++ calls', by rw [hcalls', hcalls, List.append_assoc], ?_⟩
    exact List.forall_mem_append.mpr ⟨hall, hall'⟩

/-- A step that passes nothing, and calls for nothing. -/
lemma stay (h : HasPassed source ts p p') {s : Evaluation} (hs : s.IsReached source)
    (hstands : ∀ l, p'.1.tokens.StandsAt l → s.tokens.StandsAt l) :
    HasPassed source ts p (s, p'.2) where
  reached := hs
  moved := by
    obtain ⟨l, l', hstands', hpasses, hstands₁⟩ := h.moved
    exact ⟨l, l', hstands', hpasses, hstands l' hstands₁⟩
  passed := h.passed
  called := h.called

/-- A call that starts is made in the state that is reached. -/
lemma enter {scope : Nat} (hp : p.1.IsReached source) (hscope : scope < p.1.scopes.scopes.size) :
    HasPassed source [] p (enter scope p) :=
  ⟨hp, (refl hp).moved, (refl hp).passed, [(p.1, scope)], rfl, by simpa using ⟨hp, hscope⟩⟩

lemma leave (h : HasPassed source ts p p') : HasPassed source ts p (leave p') :=
  ⟨h.reached, h.moved, h.passed, h.called⟩

/-- The current token is made of units that its kind accepts. -/
lemma accepts (h : HasPassed source ts p p') :
    p'.1.tokens.current.kind.accepts p'.1.tokens.current.text := by
  obtain ⟨l, hstands⟩ := h.reached.exists_standsAt
  obtain ⟨l', hnext⟩ := hstands.exists_next
  exact (Lexer.next_eq_ok_iff.mp hnext).2.2.2.1

/-- Each token that is passed takes a unit at least. -/
lemma size_le (h : HasPassed source ts p p') :
    p'.1.tokens.size + ts.length ≤ p.1.tokens.size := by
  obtain ⟨l, l', hstands, hpasses, hstands'⟩ := h.moved
  rw [hstands.size_eq, hstands'.size_eq]
  exact hpasses.length_le

end HasPassed

/-! ### Ends of steps -/

/-- Whatever the end of the step is, tokens have been passed from the start on; and if the step
returns, then as it should. -/
def Ends (source : Text) (start : Evaluation × Account) (x : AccountM α)
    (p : Evaluation × Account) (post : α → Evaluation × Account → Prop) : Prop :=
  match x p with
  | .ok a p' => post a p'
  | .error _ p' => ∃ ts, HasPassed source ts start p'

section Ends

variable {source : Text} {ts us : List Token} {start p : Evaluation × Account}
  {post : α → Evaluation × Account → Prop}

lemma ends_pure {a : α} (h : post a p) : Ends source start (pure a) p post := h

lemma ends_bind {x : AccountM β} {f : β → AccountM α}
    (h : Ends source start x p fun b p' => Ends source start (f b) p' post) :
    Ends source start (x >>= f) p post := by
  simp only [Ends, bind_apply] at h ⊢
  cases hx : x p with
  | ok b p' => simpa only [hx] using h
  | error e p' => simpa only [hx] using h

lemma Ends.mono {x : AccountM α} {post' : α → Evaluation × Account → Prop}
    (h : Ends source start x p post) (himp : ∀ a p', post a p' → post' a p') :
    Ends source start x p post' := by
  simp only [Ends] at h ⊢
  cases hx : x p with
  | ok a p' => exact himp a p' (by simpa only [hx] using h)
  | error e p' => simpa only [hx] using h

/-- A step may start later than the tokens have been counted from. -/
lemma Ends.from_start {x : AccountM α} (h : HasPassed source ts start p)
    (hx : Ends source p x p post) : Ends source start x p post := by
  simp only [Ends] at hx ⊢
  cases hresult : x p with
  | ok a p' => simpa only [hresult] using hx
  | error e p' =>
    obtain ⟨us, hus⟩ : ∃ us, HasPassed source us p p' := by simpa only [hresult] using hx
    exact ⟨ts ++ us, h.trans hus⟩

lemma ends_current {post : Token → Evaluation × Account → Prop} (h : post p.1.tokens.current p) :
    Ends source start (step Evaluation.current) p post := h

lemma ends_get {post : Evaluation → Evaluation × Account → Prop} (h : post p.1 p) :
    Ends source start (step get) p post := h

lemma ends_throw {e : Error} (h : HasPassed source ts start p) :
    Ends source start (throw e) p post := ⟨ts, h⟩

lemma ends_fail {e : SyntaxError} (h : HasPassed source ts start p) :
    Ends source start (step (Evaluation.fail e)) p post := ⟨ts, h⟩

lemma ends_lookup {scope : Nat} {name : Text} {post : Int → Evaluation × Account → Prop}
    (h : HasPassed source ts start p) (hpost : ∀ value, post value p) :
    Ends source start (step (Evaluation.lookup scope name)) p post := by
  rw [Ends, step_apply, Evaluation.lookup_apply]
  cases p.1.scopes.lookup? scope name with
  | some value => exact hpost value
  | none => exact ⟨ts, h⟩

/-- Moving on passes the current token. -/
lemma ends_advance {post : Unit → Evaluation × Account → Prop} (h : HasPassed source ts start p)
    (hkind : p.1.tokens.current.kind ≠ .endOfFile)
    (hpost : ∀ p', HasPassed source (ts ++ [p.1.tokens.current]) start p' →
      p'.1.scopes = p.1.scopes → p'.1.tokens.held = none → post () p') :
    Ends source start advance p post := by
  obtain ⟨l, hstands⟩ := h.reached.exists_standsAt
  obtain ⟨l', hnext⟩ := hstands.exists_next
  have hreached := h.reached.advance
  rw [Ends, advance_apply]
  rw [Evaluation.stateAfter] at hreached
  rcases Evaluation.advance_cases hstands hnext with
    ⟨e, hadvance⟩ | ⟨tokens, hadvance, hstands', hheld⟩
  · rw [hadvance]
    exact ⟨ts, h⟩
  · rw [hadvance] at hreached ⊢
    refine hpost _ (h.trans ⟨hreached, ⟨l, l', hstands, ?_, hstands'⟩, rfl, ?_⟩) rfl hheld
    · exact .cons hnext hkind (.nil l')
    · exact ⟨[], (List.append_nil _).symm, by simp⟩

lemma ends_require {kind : TokenKind} {place : Place} {post : Unit → Evaluation × Account → Prop}
    (h : HasPassed source ts start p) (hkind : kind ≠ .endOfFile)
    (hpost : ∀ t p', kind.accepts t.text → HasPassed source (ts ++ [t]) start p' →
      p'.1.scopes = p.1.scopes → p'.1.tokens.held = none → post () p') :
    Ends source start (require kind place) p post := by
  refine ends_bind (ends_current ?_)
  by_cases ht : p.1.tokens.current.kind = kind
  · rw [if_pos ht]
    exact ends_advance h (ht ▸ hkind) fun p' => hpost _ p' (ht ▸ h.accepts)
  · rw [if_neg ht]
    exact ends_fail h

/-- Looking ahead passes nothing. -/
lemma ends_peek {post : Token → Evaluation × Account → Prop} (h : HasPassed source ts start p)
    (hpost : ∀ u p', HasPassed source ts start p' → p'.1.scopes = p.1.scopes →
      p'.1.tokens.current = p.1.tokens.current → post u p') :
    Ends source start (step Evaluation.peek) p post := by
  obtain ⟨l, hstands⟩ := h.reached.exists_standsAt
  have hreached := h.reached.peek
  rw [Ends, step_apply]
  rw [Evaluation.stateAfter] at hreached
  rcases Evaluation.peek_cases hstands with ⟨e, hpeek⟩ | ⟨u, tokens, hpeek, hstands', hcurrent⟩
  · rw [hpeek]
    exact ⟨ts, h⟩
  · rw [hpeek] at hreached ⊢
    refine hpost u _ (h.stay hreached fun l' hl' => ?_) rfl hcurrent
    rwa [← hstands.unique hl']

lemma ends_newScope {parent : Nat} {post : Nat → Evaluation × Account → Prop}
    (h : HasPassed source ts start p) (hparent : parent < p.1.scopes.scopes.size)
    (hpost : ∀ p', HasPassed source ts start p' →
      p'.1.scopes = (p.1.scopes.child parent).2 → post p.1.scopes.scopes.size p') :
    Ends source start (step (Evaluation.newScope parent)) p post :=
  hpost _ (h.stay (h.reached.newScope hparent) fun _ => id) rfl

lemma ends_define {scope : Nat} {name : Text} {value : Int}
    {post : PUnit → Evaluation × Account → Prop} (h : HasPassed source ts start p)
    (hscope : scope < p.1.scopes.scopes.size)
    (hpost : ∀ p', HasPassed source ts start p' →
      p'.1.scopes = p.1.scopes.define scope name value → post ⟨⟩ p') :
    Ends source start (step (Evaluation.define scope name value)) p post :=
  hpost _ (h.stay (h.reached.define hscope name value) fun _ => id) rfl

end Ends

end Account

end Sprig
