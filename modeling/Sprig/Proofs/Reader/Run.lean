import Mathlib.Data.List.Induction
import Sprig.Proofs.Reader.Basic

/-!
# Runs of a reader

A run takes one token after the other, so what the moves keep holds after all tokens that are
taken. A run that comes to a value has taken every token of the text up to the end of the input;
one that fails has taken all tokens before the one that is refused.
-/

namespace Sprig

/-- What a stage can hold: only an unbound name is put off as a failure, and only a space is kept
as a token. -/
def Stage.IsGenuine : Stage → Prop
  | .value (.error e) => ∃ name, e = .unboundName name
  | .extra _ space => space.kind = .space
  | _ => True

namespace Reader

variable {limit : Nat} {r r' : Reader} {ts : List Token} {l : Lexer}

/-- Induction over a run: what holds before the first token and is kept by every move holds after
all tokens that are taken. -/
theorem feedAll_induction {motive : Reader → List Token → Prop}
    (hstep : ∀ {r₁ r₂ : Reader} {taken : List Token} {t : Token}, t ∈ ts →
      Moves limit r₁ t r₂ → motive r₁ taken → motive r₂ (taken ++ [t]))
    (hinit : motive r []) (h : r.feedAll limit ts = .ok r') : motive r' ts := by
  induction ts using List.reverseRecOn generalizing r' with
  | nil =>
    cases h
    exact hinit
  | append_singleton taken t ih =>
    obtain ⟨r₁, htaken, hfeed⟩ := feedAll_append_eq_ok_iff.mp h
    rw [feedAll_singleton] at hfeed
    refine hstep (by simp) (moves_of_feed hfeed) (ih ?_ htaken)
    intro r₃ r₄ before u hu
    exact hstep (by simp [hu])

/-- The end of the input is taken only after a whole expression, and changes nothing. -/
lemma Moves.eq_of_endOfFile {t : Token} (h : Moves limit r t r') (hkind : t.kind = .endOfFile) :
    r' = r ∧ ∃ value, r = ⟨.value (.ok value), []⟩ := by
  cases h with
  | finish => exact ⟨rfl, _, rfl⟩
  | first _ henters => cases henters <;> simp_all
  | expression _ henters => cases henters <;> simp_all
  | body _ _ henters => cases henters <;> simp_all
  | _ => simp_all

/-- All tokens of a text without faults are taken only if the reader comes to a value. -/
lemma exists_tokens_of_feedAll_scan (hfault : l.scan.fault = none)
    (h : r.feedAll limit l.scan.tokens = .ok r') :
    ∃ (ts : List Token) (value : Int), l.rest = Token.texts ts ∧ Token.AreRead ts [] ∧
      r.feedAll limit ts = .ok r' ∧ r' = ⟨.value (.ok value), []⟩ := by
  obtain ⟨ts, t, hscan, hkind⟩ := l.exists_scan_eq_append hfault
  obtain ⟨l', hrest, hend, hread⟩ := Lexer.exists_scan_of_append hscan (Or.inl (by simp))
  obtain ⟨l'', hnext⟩ := Lexer.exists_next_of_scan hend
  rw [Lexer.rest_eq_nil_of_next hnext hkind] at hrest hread
  rw [hscan] at h
  obtain ⟨r₁, hts, hfeed⟩ := feedAll_append_eq_ok_iff.mp h
  rw [feedAll_singleton] at hfeed
  obtain ⟨rfl, value, rfl⟩ := (moves_of_feed hfeed).eq_of_endOfFile hkind
  exact ⟨ts, value, by simpa using hrest, hread, hts, rfl⟩

/-- Before a run gets to a value it takes the tokens of the whole text. -/
theorem exists_tokens_of_run_eq_ok {value : Int} (h : r.run limit l = .ok value) :
    ∃ ts : List Token, l.rest = Token.texts ts ∧ Token.AreRead ts [] ∧
      r.feedAll limit ts = .ok ⟨.value (.ok value), []⟩ := by
  obtain ⟨hfault, r', htokens, hresult⟩ := run_eq_ok_iff.mp h
  obtain ⟨ts, n, hrest, hread, hts, rfl⟩ := exists_tokens_of_feedAll_scan hfault htokens
  cases hresult
  exact ⟨ts, hrest, hread, hts⟩

/-- Tokens that are not all taken are taken up to the first one that is refused. -/
lemma exists_of_feedAll_eq_error {e : Error} (h : r.feedAll limit ts = .error e) :
    ∃ taken t left r', ts = taken ++ t :: left ∧ r.feedAll limit taken = .ok r' ∧
      r'.feed limit t = .error e := by
  induction ts generalizing r with
  | nil => simp at h
  | cons t ts ih =>
    rw [feedAll_cons] at h
    cases hfeed : r.feed limit t with
    | error e' =>
      obtain rfl : e' = e := by simpa [hfeed, Except.bind] using h
      exact ⟨[], t, ts, r, rfl, rfl, hfeed⟩
    | ok r₁ =>
      simp only [hfeed, Except.bind] at h
      obtain ⟨taken, u, left, r', rfl, htaken, hu⟩ := ih h
      exact ⟨t :: taken, u, left, r', rfl, feedAll_cons_eq_ok_iff.mpr ⟨r₁, hfeed, htaken⟩, hu⟩

/-- Of the tokens of a text one is refused by a run that fails, or all are taken and it is the unit
after them that starts no token. -/
theorem exists_scan_of_run_eq_error {e : Error} (h : r.run limit l = .error e) :
    (∃ (taken left : List Token) (t : Token) (r' : Reader), l.scan.tokens = taken ++ t :: left ∧
      r.feedAll limit taken = .ok r' ∧ r'.feed limit t = .error e) ∨
    ∃ c, l.scan.fault = some c ∧ e = .malformed c := by
  cases htokens : r.feedAll limit l.scan.tokens with
  | error e' =>
    obtain rfl : e' = e := by simpa [run, htokens, Except.bind] using h
    obtain ⟨taken, t, left, r', heq, htaken, ht⟩ := exists_of_feedAll_eq_error htokens
    exact Or.inl ⟨taken, left, t, r', heq, htaken, ht⟩
  | ok r₁ =>
    cases hfault : l.scan.fault with
    | some c =>
      refine Or.inr ⟨c, rfl, ?_⟩
      simpa [run, htokens, hfault, Except.bind, conclude, eq_comm] using h
    | none =>
      obtain ⟨ts, n, -, -, -, rfl⟩ := exists_tokens_of_feedAll_scan hfault htokens
      have hvalue : r.run limit l = .ok n := run_eq_ok_iff.mpr ⟨hfault, _, htokens, rfl⟩
      rw [hvalue] at h
      cases h

/-- A run fails at a token that is refused or at a unit that starts no token. -/
theorem exists_tokens_of_run_eq_error {e : Error} (h : r.run limit l = .error e) :
    (∃ (taken : List Token) (t : Token) (r' : Reader) (l' l'' : Lexer),
      l.rest = Token.texts taken ++ l'.rest ∧ Token.AreRead taken l'.rest ∧
        l'.next = .ok (t, l'') ∧ r.feedAll limit taken = .ok r' ∧ r'.feed limit t = .error e) ∨
    ∃ c, l.scan.fault = some c ∧ e = .malformed c := by
  obtain ⟨taken, left, t, r', heq, htaken, ht⟩ | hfault := exists_scan_of_run_eq_error h
  · have hscan : l.scan = ⟨taken ++ t :: left, l.scan.fault⟩ := by rw [← heq]
    obtain ⟨l', hrest, hleft, hread⟩ := Lexer.exists_scan_of_append hscan (Or.inl (by simp))
    obtain ⟨l'', hnext⟩ := Lexer.exists_next_of_scan hleft
    exact Or.inl ⟨taken, t, r', l', l'', hrest, hread, hnext, htaken, ht⟩
  · exact Or.inr hfault

/-- At the end of the input a value is the outcome. -/
lemma run_value_nil (limit : Nat) (value : Int) (p : Nat) :
    run limit ⟨.value (.ok value), []⟩ ⟨p, []⟩ = .ok value := by
  have hnext : (⟨p, []⟩ : Lexer).next = .ok (⟨.endOfFile, [], p⟩, ⟨p, []⟩) := rfl
  have hfeed : feed limit ⟨.value (.ok value), []⟩ ⟨.endOfFile, [], p⟩ =
      .ok ⟨.value (.ok value), []⟩ := rfl
  rw [run_of_endOfFile hnext rfl hfeed]
  rfl

/-- A reader at its start may be given a space; then, as without one, it waits for a whole
expression. -/
lemma exists_feedAll_expression {rest : Text} (h : start.feedAll limit ts = .ok r) (hts : ts ≠ [])
    (hread : Token.AreRead ts rest) :
    ∃ lead body : List Token, ts = lead ++ body ∧
      (Token.texts lead = [] ∨ Token.texts lead = [CodeUnit.space]) ∧ Token.AreRead body rest ∧
      feedAll limit ⟨.expression [], []⟩ body = .ok r := by
  cases ts with
  | nil => exact absurd rfl hts
  | cons t ts =>
    by_cases hkind : t.kind = .space
    · have hfeed : start.feed limit t = .ok ⟨.expression [], []⟩ := by simp [start, feed, hkind]
      have htext : t.text = [CodeUnit.space] :=
        Token.text_eq_space (hread.accepts t (by simp)) hkind
      refine ⟨[t], ts, rfl, Or.inr (by simp [htext]), hread.2.2.2, ?_⟩
      simpa [hfeed, Except.bind] using h
    · have hfeed : start.feed limit t = feed limit ⟨.expression [], []⟩ t := by
        simp [start, feed, hkind]
      refine ⟨[], t :: ts, rfl, Or.inl rfl, hread, ?_⟩
      rwa [feedAll_cons, ← hfeed, ← feedAll_cons]

/-! ### What is put off -/

lemma isGenuine_find (env : Bindings) (name : Text) : (Stage.value (env.find name)).IsGenuine := by
  cases hlookup : env.lookup name with
  | some value => simp [Bindings.find, hlookup, Stage.IsGenuine]
  | none => simp [Bindings.find, hlookup, Stage.IsGenuine]

lemma isGenuine_of_enters {env : Bindings} {frames : List Frame} {t : Token}
    (h : Enters limit env frames t r) : r.stage.IsGenuine := by
  cases h with
  | integer => trivial
  | name => exact isGenuine_find env t.text
  | form => trivial

lemma isGenuine_of_moves {t : Token} (hmoves : Moves limit r t r') : r'.stage.IsGenuine := by
  cases hmoves with
  | first _ henters => exact isGenuine_of_enters henters
  | expression _ henters => exact isGenuine_of_enters henters
  | body _ _ henters => exact isGenuine_of_enters henters
  | extra hkind => exact hkind
  | _ => trivial

lemma isGenuine_of_feedAll (h : start.feedAll limit ts = .ok r) : r.stage.IsGenuine := by
  have hstart : start.stage.IsGenuine := trivial
  refine feedAll_induction (motive := fun r _ => r.stage.IsGenuine) ?_ hstart h
  intro _ _ _ _ _ hmoves _
  exact isGenuine_of_moves hmoves

end Reader

end Sprig
