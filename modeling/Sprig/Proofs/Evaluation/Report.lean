import Sprig.Proofs.Evaluation.Simulation
import Sprig.Proofs.Reader.Report
import Sprig.Proofs.Token.Position

/-!
# Where errors are found

A syntax error has a place in the text. It shows the token that is read there, or the unit there if
no token can start at it, or an integer there that is no word. Tokens are read when they are asked
for, yet an evaluation finds the same ones as reading all of them beforehand does: if the text has a
unit that starts no token, this is what is found, unless the evaluation fails before it gets there.
-/

namespace Sprig

variable {limit : Nat} {source : Text} {t : Token} {c : SyntaxError} {p : Nat}

/-! ### What an error shows -/

namespace SyntaxError

/-- The error shows the token that is read at a place, which is not of a kind that was required. -/
def ShowsToken (source : Text) (p : Nat) (c : SyntaxError) : Prop :=
  ∃ t ∈ (Lexer.ofText source).scan.tokens, c.found? = some t ∧ t.position = p ∧
    t.text = (source.drop p).take t.text.length ∧ (t.kind = .endOfFile ↔ p = source.length) ∧
    c.expected? ≠ some t.kind

/-- The error shows the unit at a place, the first one at which no token can start. -/
def ShowsUnit (source : Text) (p : Nat) (c : SyntaxError) : Prop :=
  c.found? = none ∧ c.expected? = none ∧ source.IsFault p

/-- The error shows the integer that is read at a place, which is no word. -/
def ShowsLiteral (source : Text) (p : Nat) (c : SyntaxError) : Prop :=
  c.found? = none ∧ c.expected? = none ∧
    ∃ t ∈ (Lexer.ofText source).scan.tokens, t.kind = .integer ∧ t.position = p ∧
      (∃ rest, source.drop p = t.text ++ rest ∧ t.text.isInteger ∧
        TokenKind.integer.endsBefore rest) ∧ ¬ IsWord t.text.integerValue

lemma ShowsToken.not_showsUnit (h : c.ShowsToken source p) : ¬ c.ShowsUnit source p := by
  rintro ⟨hnone, -⟩
  obtain ⟨t, -, hfound, -⟩ := h
  rw [hnone] at hfound
  cases hfound

lemma ShowsToken.not_showsLiteral (h : c.ShowsToken source p) : ¬ c.ShowsLiteral source p := by
  rintro ⟨hnone, -⟩
  obtain ⟨t, -, hfound, -⟩ := h
  rw [hnone] at hfound
  cases hfound

/-- An integer is a token. -/
lemma ShowsLiteral.lexeme?_drop_ne_none (h : c.ShowsLiteral source p) :
    Text.lexeme? (source.drop p) ≠ none := by
  obtain ⟨-, -, t, -, -, -, ⟨rest, hdrop, hinteger, hends⟩, -⟩ := h
  have haccepts : TokenKind.integer.accepts t.text := hinteger
  rw [hdrop, Text.lexeme?_append haccepts hends]
  exact Option.some_ne_none _

lemma ShowsUnit.not_showsLiteral (h : c.ShowsUnit source p) : ¬ c.ShowsLiteral source p :=
  fun hliteral => hliteral.lexeme?_drop_ne_none h.2.2.lexeme?_drop

/-- What is reported of a token stands where the token is read. -/
lemma Reports.shows (h : c.Reports t) (ht : t ∈ (Lexer.ofText source).scan.tokens) :
    c.position? = some t.position ∧
      (c.ShowsToken source t.position ∨ c.ShowsLiteral source t.position) := by
  have hstands := (Lexer.reads_ofText source).standsIn_of_mem_scan t ht
  cases h with
  | found hposition hfound hexpected =>
    exact ⟨hposition, Or.inl ⟨t, ht, hfound, rfl, hstands.text_eq, hstands.kind_eq_endOfFile_iff,
      hexpected⟩⟩
  | literal hkind hvalue =>
    obtain ⟨rest, hdrop, haccepts, hends⟩ := Text.lexeme?_eq_some_iff.mp hstands.lexeme?_drop
    have hinteger := t.isInteger_text haccepts hkind
    have hword : ¬ IsWord t.text.integerValue := by
      intro hword
      simp [Word.ofText?_of_isInteger hinteger, hword] at hvalue
    rw [hkind] at hends
    exact ⟨rfl, Or.inr ⟨rfl, rfl, t, ht, hkind, rfl, ⟨rest, hdrop, hinteger, hends⟩, hword⟩⟩

end SyntaxError

/-! ### Evaluations -/

lemma isRefusal_of_evaluate {e : Error} (h : evaluate limit source = .error e) :
    e.IsRefusal limit (Lexer.ofText source).scan.tokens ∨
      ∃ c, (Lexer.ofText source).scan.fault = some c ∧ e = .malformed c := by
  rw [evaluate_eq_run] at h
  exact Reader.isRefusal_of_run h

/-- Syntax errors point at what is there. Each has a place within the text or at its end, and it
shows exactly one of three things: the token that is read there, if it is not of a kind that was
required; the first unit at which no token can start; an integer that is no word. -/
theorem evaluate_malformed (h : evaluate limit source = .error (.malformed c)) :
    ∃ p : Nat, c.position? = some (p : Int) ∧ p ≤ source.length ∧
      (c.ShowsToken source p ∨ c.ShowsUnit source p ∨ c.ShowsLiteral source p) ∧
      ¬ (c.ShowsToken source p ∧ c.ShowsUnit source p) ∧
      ¬ (c.ShowsToken source p ∧ c.ShowsLiteral source p) ∧
      ¬ (c.ShowsUnit source p ∧ c.ShowsLiteral source p) := by
  suffices hplace : ∃ p : Nat, c.position? = some (p : Int) ∧ p ≤ source.length ∧
      (c.ShowsToken source p ∨ c.ShowsUnit source p ∨ c.ShowsLiteral source p) by
    obtain ⟨p, hposition, hle, hshows⟩ := hplace
    exact ⟨p, hposition, hle, hshows, fun h => h.1.not_showsUnit h.2,
      fun h => h.1.not_showsLiteral h.2, fun h => h.1.not_showsLiteral h.2⟩
  have hreads := Lexer.reads_ofText source
  rcases isRefusal_of_evaluate h with hrefusal | ⟨c', hfault, hc⟩
  · cases hrefusal with
    | @malformed _ t ht hreports =>
      obtain ⟨hposition, hshows⟩ := hreports.shows ht
      have hle := (hreads.standsIn_of_mem_scan t ht).position_le
      exact ⟨t.position, hposition, hle, hshows.imp_right Or.inr⟩
  · cases hc
    obtain ⟨_, p, rfl, -, hplace⟩ := hreads.isFault_of_scan hfault
    exact ⟨p, rfl, hplace.lt_length.le, Or.inr (Or.inl ⟨rfl, rfl, hplace⟩)⟩

/-- The space after a second operand, the unit that no third one starts with, and a literal. -/
theorem evaluate_malformed_add :
    (∃ c, evaluate 2 "(add 1 2 )" = .error (.malformed c) ∧ c.ShowsToken "(add 1 2 )" 8) ∧
    (∃ c, evaluate 2 "(add 1 2 $)" = .error (.malformed c) ∧ c.ShowsUnit "(add 1 2 $)" 9) ∧
    ∃ c, evaluate 2 "(add 1 2147483648 $" = .error (.malformed c) ∧
      c.ShowsLiteral "(add 1 2147483648 $" 7 := by
  have hspace : evaluate 2 "(add 1 2 )" = .error (.malformed
      (.missing .closeParen (.afterSecondOperand .add) ⟨.space, " ", 8⟩)) := by decide +kernel
  have hunit : evaluate 2 "(add 1 2 $)" = .error (.malformed (.unexpectedUnit 0x24 9)) := by
    decide +kernel
  have hliteral : evaluate 2 "(add 1 2147483648 $" =
      .error (.malformed (.literalOutOfRange ⟨.integer, "2147483648", 7⟩)) := by decide +kernel
  refine ⟨⟨_, hspace, ?_⟩, ⟨_, hunit, ?_⟩, _, hliteral, ?_⟩
  · obtain ⟨p, hposition, -, htoken | hshows | hshows, -⟩ := evaluate_malformed hspace
    · obtain rfl : 8 = p := Int.ofNat.inj (Option.some.inj hposition)
      exact htoken
    · cases hshows.1
    · cases hshows.1
  · obtain ⟨p, hposition, -, ⟨t, -, hfound, -⟩ | hshows | hshows, -⟩ := evaluate_malformed hunit
    · cases hfound
    · obtain rfl : 9 = p := Int.ofNat.inj (Option.some.inj hposition)
      exact hshows
    · obtain rfl : 9 = p := Int.ofNat.inj (Option.some.inj hposition)
      exact absurd (by decide) hshows.lexeme?_drop_ne_none
  · obtain ⟨p, hposition, -, ⟨t, -, hfound, -⟩ | hshows | hshows, -⟩ := evaluate_malformed hliteral
    · cases hfound
    · obtain rfl : 7 = p := Int.ofNat.inj (Option.some.inj hposition)
      exact absurd hshows.2.2.lexeme?_drop (by decide)
    · obtain rfl : 7 = p := Int.ofNat.inj (Option.some.inj hposition)
      exact hshows

/-! ### Reading all tokens beforehand -/

/-- The errors that an evaluation can find before it gets to a place. -/
inductive Error.IsFoundBefore (limit p : Nat) : Error → Prop
  | malformed {c : SyntaxError} {q : Nat} (hposition : c.position? = some q) (hlt : q < p) :
    IsFoundBefore limit p (.malformed c)
  | unboundName (name : Text) : IsFoundBefore limit p (.unboundName name)
  | unknownOperator (name : Text) : IsFoundBefore limit p (.unknownOperator name)
  | tooDeep : IsFoundBefore limit p (.tooDeep limit)

/-- No token is reported as a unit that starts none. -/
lemma SyntaxError.Reports.ne_unexpectedUnit {unit : CodeUnit} (h : c.Reports t) :
    c ≠ .unexpectedUnit unit p := by
  rintro rfl
  cases h with
  | found _ hfound _ => cases hfound

/-- What is reported of the tokens before a fault is found before it. -/
lemma Error.IsRefusal.isFoundBefore {unit : CodeUnit} {l : Lexer} {e : Error}
    (h : e.IsRefusal limit l.scan.tokens)
    (hfault : l.scan.fault = some (.unexpectedUnit unit p)) : e.IsFoundBefore limit p := by
  cases h with
  | malformed ht hreports =>
    have hlt := Lexer.position_lt_of_fault hfault _ ht
    cases hreports with
    | found hposition => exact .malformed hposition hlt
    | literal => exact .malformed rfl hlt
  | unboundName name => exact .unboundName name
  | unknownOperator name => exact .unknownOperator name
  | tooDeep => exact .tooDeep

/-- Reading tokens as they are asked for finds what reading all of them does. If a text is nothing
but tokens, its evaluation finds no unit that starts none. Otherwise it has no value, and either it
finds that unit or it fails by what comes before. -/
theorem evaluate_tokens (limit : Nat) (source : Text) :
    (∀ ts, source.tokens = .ok ts →
      ∀ unit p, evaluate limit source ≠ .error (.malformed (.unexpectedUnit unit p))) ∧
    ∀ c, source.tokens = .error c → ∃ unit p, c = .unexpectedUnit unit p ∧
      ∃ e, evaluate limit source = .error e ∧ (e = .malformed c ∨ e.IsFoundBefore limit p) := by
  rw [Text.tokens_eq_scan, Scan.toExcept]
  cases hfault : (Lexer.ofText source).scan.fault with
  | none =>
    refine ⟨?_, by simp⟩
    intro ts _ unit p h
    rcases isRefusal_of_evaluate h with hrefusal | ⟨c, hc, -⟩
    · cases hrefusal with
      | malformed _ hreports => exact hreports.ne_unexpectedUnit rfl
    · rw [hfault] at hc
      cases hc
  | some c =>
    refine ⟨by simp, ?_⟩
    rintro _ ⟨⟩
    obtain ⟨unit, p, rfl, -, -⟩ := (Lexer.reads_ofText source).isFault_of_scan hfault
    refine ⟨unit, p, rfl, ?_⟩
    cases hresult : evaluate limit source with
    | ok value =>
      rw [evaluate_eq_run, Reader.run_eq_ok_iff, hfault] at hresult
      cases hresult.1
    | error e =>
      refine ⟨e, rfl, ?_⟩
      rcases isRefusal_of_evaluate hresult with hrefusal | ⟨c, hc, rfl⟩
      · exact Or.inr (hrefusal.isFoundBefore hfault)
      · rw [hfault] at hc
        cases hc
        exact Or.inl rfl

/-- A space that is refused, and a name that is not bound before a unit that starts no token. -/
theorem evaluate_tokens_add :
    (∃ ts, Text.tokens "(add 1 2 )" = .ok ts) ∧
    (∀ unit p, evaluate 2 "(add 1 2 )" ≠ .error (.malformed (.unexpectedUnit unit p))) ∧
    Text.tokens "(add x 1 $" = .error (.unexpectedUnit 0x24 9) ∧
    ∃ e, evaluate 2 "(add x 1 $" = .error e ∧
      (e = .malformed (.unexpectedUnit 0x24 9) ∨ e.IsFoundBefore 2 9) := by
  obtain ⟨ts, htokens⟩ : ∃ ts, Text.tokens "(add 1 2 )" = .ok ts := ⟨_, rfl⟩
  have hfault : Text.tokens "(add x 1 $" = .error (.unexpectedUnit 0x24 9) := by decide +kernel
  obtain ⟨unit, p, hc, hevaluate⟩ := (evaluate_tokens 2 "(add x 1 $").2 _ hfault
  cases hc
  exact ⟨⟨ts, htokens⟩, (evaluate_tokens 2 "(add 1 2 )").1 ts htokens, hfault, hevaluate⟩

end Sprig
