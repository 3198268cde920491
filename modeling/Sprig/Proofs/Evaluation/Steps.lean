import Sprig.Evaluation.Expression
import Sprig.Proofs.Number.Literal
import Sprig.Proofs.Reader.Basic
import Sprig.Proofs.Scope.Extension
import Sprig.Proofs.Token.Cursor

/-!
# Steps of an evaluation and moves of a reader

A reader that is fed the tokens of a text has frames for the calls of the evaluator that have not
returned, and lists of bindings for the scopes. Here the single steps of the evaluator are compared
with its moves.

The outcome of the reader is fixed from the start: wherever the evaluation stands, the tokens that
are left take the reader from its place to the same outcome. So a step of the evaluation may fail
only with that outcome, and if it succeeds the evaluation has to be where the reader is next.
-/

namespace Sprig

/-- Bindings to words only. -/
def Bindings.AreWords (env : Bindings) : Prop :=
  ∀ name value, env.lookup name = some value → IsWord value

namespace Bindings

lemma areWords_nil : AreWords [] := by simp [AreWords]

lemma AreWords.cons {env : Bindings} (h : env.AreWords) {value : Int} (hvalue : IsWord value)
    (name : Text) : AreWords ((name, value) :: env) := by
  intro name' value' hlookup
  rw [List.lookup_cons] at hlookup
  split at hlookup
  · cases hlookup
    exact hvalue
  · exact h name' value' hlookup

end Bindings

namespace Evaluation

variable {α β : Type}

/-! ### Steps that fail with a given outcome -/

/-- The step fails with the outcome, or comes to an end that is as it should be. -/
def Yields (outcome : Except Error Int) (step : EvalM α) (s : Evaluation)
    (post : α → Evaluation → Prop) : Prop :=
  match step s with
  | .ok a s' => post a s'
  | .error e _ => outcome = .error e

section Yields

variable {outcome : Except Error Int} {s : Evaluation} {post : α → Evaluation → Prop}

lemma yields_pure {a : α} (h : post a s) : Yields outcome (pure a) s post := h

lemma yields_bind {step : EvalM β} {next : β → EvalM α}
    (h : Yields outcome step s fun b s' => Yields outcome (next b) s' post) :
    Yields outcome (step >>= next) s post := by
  simp only [Yields, bind_apply] at h ⊢
  cases hstep : step s with
  | ok b s' => simpa only [hstep] using h
  | error e s' => simpa only [hstep] using h

lemma Yields.mono {step : EvalM α} {post' : α → Evaluation → Prop}
    (h : Yields outcome step s post) (himp : ∀ a s', post a s' → post' a s') :
    Yields outcome step s post' := by
  simp only [Yields] at h ⊢
  cases hstep : step s with
  | ok a s' => exact himp a s' (by simpa only [hstep] using h)
  | error e s' => simpa only [hstep] using h

lemma yields_current {post : Token → Evaluation → Prop} (h : post s.tokens.current s) :
    Yields outcome current s post := h

end Yields

/-! ### Where an evaluation stands -/

/-- The evaluation stands at a lexer, from which the reader comes to the outcome. -/
structure Placed (limit : Nat) (outcome : Except Error Int) (r : Reader) (l : Lexer)
    (s : Evaluation) : Prop where
  stands : s.tokens.StandsAt l
  run : r.run limit l = outcome

/-- A scope that answers like bindings to words. -/
structure Scoped (scope : Nat) (env : Bindings) (t : ScopeTree) : Prop where
  wellFormed : t.IsWellFormed
  holds : t.Holds scope env
  words : env.AreWords

lemma Scoped.of_extends {scope : Nat} {env : Bindings} {t t' : ScopeTree}
    (h : Scoped scope env t) (ht' : t'.IsWellFormed) (hgrown : t'.Extends t) :
    Scoped scope env t' :=
  ⟨ht', h.holds.of_extends h.wellFormed hgrown, h.words⟩

namespace Placed

variable {limit : Nat} {outcome : Except Error Int} {r r' : Reader} {l l' : Lexer} {t : Token}
  {s : Evaluation}

lemma current_eq (h : Placed limit outcome r l s) (hnext : l.next = .ok (t, l')) :
    s.tokens.current = t :=
  h.stands.current_eq hnext

lemma outcome_of_error {e : Error} (h : Placed limit outcome r l s)
    (hnext : l.next = .ok (t, l')) (hfeed : r.feed limit t = .error e) : outcome = .error e := by
  rw [← h.run]
  exact Reader.run_of_error hnext hfeed

lemma yields_fail {c : SyntaxError} {post : α → Evaluation → Prop}
    (h : Placed limit outcome r l s) (hnext : l.next = .ok (t, l'))
    (hfeed : r.feed limit t = .error (.malformed c)) : Yields outcome (fail c) s post :=
  h.outcome_of_error hnext hfeed

/-- The next token is read, or what stands there is the fault that stops the reader. -/
lemma yields_advance {post : Unit → Evaluation → Prop} (h : Placed limit outcome r l s)
    (hnext : l.next = .ok (t, l')) (hkind : t.kind ≠ .endOfFile)
    (hfeed : r.feed limit t = .ok r')
    (hpost : ∀ s', s'.scopes = s.scopes → s'.tokens.held = none →
      l'.rest.length < l.rest.length → Placed limit outcome r' l' s' → post () s') :
    Yields outcome advance s post := by
  have hrun : r'.run limit l' = outcome := by
    rw [← h.run, Reader.run_of_ok hnext hkind hfeed]
  rw [Yields, advance_apply, h.stands.advance_eq hnext]
  cases hnext' : l'.next with
  | error c =>
    show outcome = .error (.malformed c)
    rw [← hrun, Reader.run_of_fault hnext']
  | ok u =>
    exact hpost _ rfl rfl (Lexer.length_rest_lt_of_next hnext hkind) ⟨.free hnext', hrun⟩

lemma yields_require {kind : TokenKind} {place : Place} {post : Unit → Evaluation → Prop}
    (h : Placed limit outcome r l s) (hnext : l.next = .ok (t, l')) (hkind : kind ≠ .endOfFile)
    (hfeed : r.feed limit t = Reader.demand kind place t r')
    (hpost : ∀ s', s'.scopes = s.scopes → s'.tokens.held = none →
      l'.rest.length < l.rest.length → Placed limit outcome r' l' s' → post () s') :
    Yields outcome (require kind place) s post := by
  rw [Yields, require_apply, h.current_eq hnext]
  by_cases ht : t.kind = kind
  · rw [if_pos ht]
    exact h.yields_advance hnext (ht ▸ hkind) (by rw [hfeed, Reader.demand, if_pos ht]) hpost
  · rw [if_neg ht]
    exact h.outcome_of_error hnext (by rw [hfeed, Reader.demand, if_neg ht])

/-- Looking ahead changes nothing, unless what stands there is a fault. -/
lemma yields_peek {post : Token → Evaluation → Prop} (h : Placed limit outcome r l s)
    (hnext : l.next = .ok (t, l')) (hkind : t.kind ≠ .endOfFile)
    (hfeed : r.feed limit t = .ok r')
    (hpost : ∀ u l'' s', l'.next = .ok (u, l'') → s'.scopes = s.scopes →
      Placed limit outcome r l s' → post u s') :
    Yields outcome peek s post := by
  rw [Yields, peek_apply]
  cases hnext' : l'.next with
  | error c =>
    rw [h.stands.peek_of_error hnext hnext']
    show outcome = .error (.malformed c)
    rw [← h.run, Reader.run_of_ok hnext hkind hfeed, Reader.run_of_fault hnext']
  | ok u =>
    obtain ⟨u, l''⟩ := u
    rw [h.stands.peek_of_ok hnext hnext']
    exact hpost u l'' _ hnext' rfl ⟨.held hnext hnext', h.run⟩

end Placed

end Evaluation

end Sprig
