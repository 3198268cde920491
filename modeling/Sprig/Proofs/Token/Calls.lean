import Sprig.Proofs.Token.Cursor

/-!
# Calls of a cursor

A cursor is used by calls in any order: its current token is read, the token after it is looked at,
or the cursor moves there. Whatever the calls are, it behaves like a number in the sequence of the
tokens of its text. Looking ahead is not noticed by any other call, and neither is a call that
fails.
-/

namespace Sprig

/-! ### The sequence of tokens -/

namespace Lexer

variable {l l' l'' : Lexer} {t : Token} {e : SyntaxError} {k m : Nat}

/-- What is left after `k` tokens. -/
def readMany : (k : Nat) → Lexer → Except SyntaxError Lexer
  | 0, l => .ok l
  | k + 1, l => l.next.bind fun r => r.2.readMany k

/-- The token after `k` others. Once the end of the input is read it is read over and over, and a
unit that starts no token is never passed. -/
def token (l : Lexer) (k : Nat) : Except SyntaxError Token :=
  (l.readMany k).bind fun l' => l'.next.map Prod.fst

lemma readMany_succ (k : Nat) (l : Lexer) :
    l.readMany (k + 1) = (l.readMany k).bind fun l' => l'.next.map Prod.snd := by
  induction k generalizing l with
  | zero =>
    simp only [readMany, Except.bind]
    cases l.next <;> rfl
  | succ k ih =>
    rw [readMany]
    cases hnext : l.next with
    | error e => simp [readMany, hnext, Except.bind]
    | ok r => simpa [readMany, hnext, Except.bind] using ih r.2

lemma readMany_succ_of_next (hread : l.readMany k = .ok l') (hnext : l'.next = .ok (t, l'')) :
    l.readMany (k + 1) = .ok l'' := by
  rw [readMany_succ, hread, Except.bind, hnext]
  rfl

lemma token_of_next (hread : l.readMany k = .ok l') (hnext : l'.next = .ok (t, l'')) :
    l.token k = .ok t := by
  rw [token, hread, Except.bind, hnext]
  rfl

lemma token_of_error (hread : l.readMany k = .ok l') (hnext : l'.next = .error e) :
    l.token k = .error e := by
  rw [token, hread, Except.bind, hnext]
  rfl

lemma token_eq_error_iff : l.token k = .error e ↔
    l.readMany k = .error e ∨ ∃ l', l.readMany k = .ok l' ∧ l'.next = .error e := by
  rw [token]
  cases hread : l.readMany k with
  | error e' => simp [Except.bind]
  | ok l' => cases hnext : l'.next <;> simp [Except.bind, Except.map, hnext]

lemma exists_readMany_of_token (h : l.token k = .ok t) :
    ∃ l' l'', l.readMany k = .ok l' ∧ l'.next = .ok (t, l'') := by
  rw [token] at h
  cases hread : l.readMany k with
  | error e => simp [hread, Except.bind] at h
  | ok l' =>
    cases hnext : l'.next with
    | error e => simp [hread, hnext, Except.bind, Except.map] at h
    | ok r =>
      obtain rfl : r.1 = t := by simpa [hread, hnext, Except.bind, Except.map] using h
      exact ⟨l', r.2, rfl, hnext⟩

/-- If some tokens cannot be read, then a lexer on the way fails. -/
lemma exists_next_of_readMany (h : l.readMany k = .error e) : ∃ l', Lexer.next l' = .error e := by
  induction k generalizing l with
  | zero => cases h
  | succ k ih =>
    rw [readMany] at h
    cases hnext : l.next with
    | error e' =>
      rw [hnext] at h
      cases h
      exact ⟨l, hnext⟩
    | ok r =>
      rw [hnext] at h
      exact ih h

/-- A token is missing because of a unit that starts none. -/
lemma exists_unit_of_token (h : l.token k = .error e) :
    ∃ unit position, e = .unexpectedUnit unit position := by
  obtain ⟨l', hnext⟩ : ∃ l', Lexer.next l' = .error e := by
    rcases token_eq_error_iff.mp h with hread | ⟨l', -, hnext⟩
    · exact exists_next_of_readMany hread
    · exact ⟨l', hnext⟩
  obtain ⟨-, rfl⟩ := next_eq_error_iff.mp hnext
  exact ⟨_, _, rfl⟩

/-- Nothing is left after the end of the input. -/
lemma eq_of_next_endOfFile (hnext : l.next = .ok (t, l')) (hkind : t.kind = .endOfFile) :
    l' = l := by
  obtain ⟨hrest, -, hposition, haccepts, -⟩ := next_eq_ok_iff.mp hnext
  rw [Token.text_eq_nil haccepts hkind] at hrest hposition
  cases l
  cases l'
  simp_all

/-- The end of the input is read for ever. -/
lemma token_of_endOfFile (h : l.token k = .ok t) (hkind : t.kind = .endOfFile) (hkm : k ≤ m) :
    l.token m = .ok t := by
  induction m, hkm using Nat.le_induction with
  | base => exact h
  | succ m _ ih =>
    obtain ⟨l', l'', hread, hnext⟩ := exists_readMany_of_token ih
    obtain rfl := eq_of_next_endOfFile hnext hkind
    exact token_of_next (readMany_succ_of_next hread hnext) hnext

/-- Where a token cannot be read no later one can. -/
lemma token_of_token_eq_error (h : l.token k = .error e) (hkm : k ≤ m) : l.token m = .error e := by
  induction m, hkm using Nat.le_induction with
  | base => exact h
  | succ m _ ih =>
    refine token_eq_error_iff.mpr (Or.inl ?_)
    rw [readMany_succ]
    rcases token_eq_error_iff.mp ih with hread | ⟨l', hread, hnext⟩
    · rw [hread]
      rfl
    · rw [hread, Except.bind, hnext]
      rfl

end Lexer

/-! ### Calls -/

/-- A call of a cursor. -/
inductive CursorCall where
  /-- Reads the current token. -/
  | current
  /-- Looks at the token after it. -/
  | peek
  /-- Moves to the token after it. -/
  | advance
  deriving DecidableEq, Repr

/-- The answer to a call in a sequence of tokens, at the token with a number. -/
def Lexer.answer (l : Lexer) (k : Nat) : CursorCall → Except SyntaxError Token
  | .current => l.token k
  | .peek | .advance => l.token (k + 1)

namespace TokenCursor

variable {s s' : TokenCursor} {l : Lexer} {k : Nat} {c : CursorCall} {before : List CursorCall}

/-- What a call answers: the token that is read, looked at or moved to, and the cursor that it
leaves. A call that fails leaves the cursor as it is. -/
def call (s : TokenCursor) : CursorCall → Except SyntaxError Token × TokenCursor
  | .current => (.ok s.current, s)
  | .peek =>
    match s.peek with
    | .ok (t, s') => (.ok t, s')
    | .error e => (.error e, s)
  | .advance =>
    match s.advance with
    | .ok s' => (.ok s'.current, s')
    | .error e => (.error e, s)

/-- The answers to calls. -/
def answers : TokenCursor → List CursorCall → List (Except SyntaxError Token)
  | _, [] => []
  | s, c :: cs => (s.call c).1 :: (s.call c).2.answers cs

/-- The cursor that calls leave. -/
def afterCalls (s : TokenCursor) (cs : List CursorCall) : TokenCursor :=
  cs.foldl (fun s c => (s.call c).2) s

/-- The number of calls that move the cursor. -/
def moves : TokenCursor → List CursorCall → Nat
  | _, [] => 0
  | s, c :: cs =>
    (if c = .advance ∧ (s.call c).1.isOk then 1 else 0) + (s.call c).2.moves cs

/-- The current token of a cursor is the one with a number. -/
def IsAt (s : TokenCursor) (l : Lexer) (k : Nat) : Prop :=
  ∃ l', l.readMany k = .ok l' ∧ s.StandsAt l'

lemma isAt_ofText {source : Text} (h : ofText source = .ok s) :
    s.IsAt (Lexer.ofText source) 0 := by
  refine ⟨Lexer.ofText source, rfl, ?_⟩
  cases hnext : (Lexer.ofText source).next with
  | error e =>
    rw [ofText_of_error hnext] at h
    cases h
  | ok r =>
    rw [ofText_of_ok hnext] at h
    cases h
    exact .free hnext

lemma map_current_ofText (source : Text) :
    (ofText source).map current = (Lexer.ofText source).token 0 := by
  cases hnext : (Lexer.ofText source).next with
  | error e =>
    rw [ofText_of_error hnext, Lexer.token_of_error rfl hnext]
    rfl
  | ok r =>
    rw [ofText_of_ok hnext, Lexer.token_of_next rfl hnext]
    rfl

/-- What one call does: it answers what the sequence of tokens says, and goes on to the next token
if it is to move and there is one. -/
lemma IsAt.call (h : s.IsAt l k) (c : CursorCall) :
    (s.call c).1 = l.answer k c ∧
    (s.call c).2.IsAt l (k + if c = .advance ∧ (s.call c).1.isOk then 1 else 0) := by
  obtain ⟨l', hread, hstands⟩ := h
  obtain ⟨l'', hnext⟩ := hstands.exists_next
  have hread' := Lexer.readMany_succ_of_next hread hnext
  cases c with
  | current => exact ⟨(Lexer.token_of_next hread hnext).symm, l', hread, hstands⟩
  | peek =>
    cases hnext' : l''.next with
    | error e =>
      have hpeek := hstands.peek_of_error hnext hnext'
      simp only [TokenCursor.call, hpeek]
      exact ⟨(Lexer.token_of_error hread' hnext').symm, l', hread, hstands⟩
    | ok r =>
      have hpeek := hstands.peek_of_ok hnext hnext'
      simp only [TokenCursor.call, hpeek]
      exact ⟨(Lexer.token_of_next hread' hnext').symm, l', hread, .held hnext hnext'⟩
  | advance =>
    cases hnext' : l''.next with
    | error e =>
      have hadvance := hstands.advance_eq hnext
      rw [hnext'] at hadvance
      simp only [TokenCursor.call, hadvance, Except.map]
      exact ⟨(Lexer.token_of_error hread' hnext').symm, l', hread, hstands⟩
    | ok r =>
      have hadvance := hstands.advance_eq hnext
      rw [hnext'] at hadvance
      simp only [TokenCursor.call, hadvance, Except.map]
      exact ⟨(Lexer.token_of_next hread' hnext').symm, l'', hread', .free hnext'⟩

/-- A run of calls takes the cursor on by the calls that move it. -/
lemma IsAt.afterCalls (h : s.IsAt l k) (cs : List CursorCall) :
    (s.afterCalls cs).IsAt l (k + s.moves cs) := by
  induction cs generalizing s k with
  | nil => exact h
  | cons c cs ih =>
    obtain ⟨-, hcall⟩ := h.call c
    have hrun := ih hcall
    rwa [Nat.add_assoc] at hrun

/-- Cursors at the same token answer alike for ever, whether they hold back the next token or
not. -/
lemma IsAt.answers_eq (h : s.IsAt l k) (h' : s'.IsAt l k) (cs : List CursorCall) :
    s.answers cs = s'.answers cs := by
  induction cs generalizing s s' k with
  | nil => rfl
  | cons c cs ih =>
    obtain ⟨hanswer, hcall⟩ := h.call c
    obtain ⟨hanswer', hcall'⟩ := h'.call c
    have hsame : (s.call c).1 = (s'.call c).1 := hanswer.trans hanswer'.symm
    rw [hsame] at hcall
    rw [answers, answers, hsame, ih hcall hcall']

/-- A call that does not move the cursor can be put between others: it adds its own answer and
changes no other one. -/
lemma answers_insert (hat : (s.afterCalls before).IsAt l k)
    (hc : ¬ (c = .advance ∧ ((s.afterCalls before).call c).1.isOk)) (after : List CursorCall) :
    s.answers (before ++ c :: after) =
      (s.answers (before ++ after)).insertIdx before.length ((s.afterCalls before).call c).1 := by
  induction before generalizing s with
  | nil =>
    obtain ⟨-, hcall⟩ := hat.call c
    rw [if_neg hc] at hcall
    exact congrArg _ (hcall.answers_eq hat after)
  | cons d before ih =>
    rw [List.cons_append, List.cons_append, answers, answers, ih hat hc]
    rfl

/-- A cursor is a number in the sequence of the tokens of its text, and the number is how often it
has been moved. It reads the token with that number, looks at the next one or moves there, and fails
if there is none, which does not change the answer to any other call. Neither does looking ahead. -/
theorem answers_eq_token (source : Text) :
    (ofText source).map current = (Lexer.ofText source).token 0 ∧
    (∀ k t, (Lexer.ofText source).token k = .ok t → t.kind = .endOfFile →
      ∀ m ≥ k, (Lexer.ofText source).token m = .ok t) ∧
    (∀ k e, (Lexer.ofText source).token k = .error e →
      (∃ unit position, e = .unexpectedUnit unit position) ∧
        ∀ m ≥ k, (Lexer.ofText source).token m = .error e) ∧
    ∀ s, ofText source = .ok s → ∀ before : List CursorCall,
      (Lexer.ofText source).token (s.moves before) = .ok (s.afterCalls before).current ∧
      ∀ c, ((s.afterCalls before).call c).1 = (Lexer.ofText source).answer (s.moves before) c ∧
        (c ≠ .advance ∨ (∃ e, ((s.afterCalls before).call c).1 = .error e) → ∀ after,
          s.answers (before ++ c :: after) = (s.answers (before ++ after)).insertIdx before.length
            ((Lexer.ofText source).answer (s.moves before) c)) := by
  refine ⟨map_current_ofText source, fun k t h hkind m hkm => Lexer.token_of_endOfFile h hkind hkm,
    fun k e h => ⟨Lexer.exists_unit_of_token h, fun m hkm => Lexer.token_of_token_eq_error h hkm⟩,
    ?_⟩
  intro s hs before
  have hat := (isAt_ofText hs).afterCalls before
  rw [Nat.zero_add] at hat
  refine ⟨(hat.call .current).1.symm, fun c => ⟨(hat.call c).1, ?_⟩⟩
  intro hc after
  rw [← (hat.call c).1]
  refine answers_insert hat ?_ after
  rintro ⟨rfl, hok⟩
  obtain hne | ⟨e, he⟩ := hc
  · exact hne rfl
  · rw [he] at hok
    cases hok

/-- The second move meets a unit that starts no token. The cursor stays at the space, as if it had
only looked ahead and moved there. -/
theorem answers_eq_token_unit : ∃ s, ofText "1 $" = .ok s ∧
    s.answers [.peek, .advance, .advance, .current] =
      [.ok ⟨.space, " ", 1⟩, .ok ⟨.space, " ", 1⟩, .error (.unexpectedUnit 0x24 2),
        .ok ⟨.space, " ", 1⟩] ∧
    s.answers [.peek, .advance, .advance, .current] =
      (s.answers [.peek, .advance, .current]).insertIdx 2 (.error (.unexpectedUnit 0x24 2)) := by
  obtain ⟨-, -, -, hcalls⟩ := answers_eq_token "1 $"
  obtain ⟨-, hcall⟩ := hcalls ⟨⟨1, " $"⟩, ⟨.integer, "1", 0⟩, none⟩ (by decide +kernel)
    [.peek, .advance]
  obtain ⟨hanswer, hinsert⟩ := hcall .advance
  have hfails : (Lexer.ofText "1 $").answer
      (moves ⟨⟨1, " $"⟩, ⟨.integer, "1", 0⟩, none⟩ [.peek, .advance]) .advance =
      .error (.unexpectedUnit 0x24 2) := by
    decide +kernel
  rw [hfails] at hanswer hinsert
  exact ⟨_, by decide +kernel, by decide +kernel, hinsert (Or.inr ⟨_, hanswer⟩) [.current]⟩

end TokenCursor

end Sprig
