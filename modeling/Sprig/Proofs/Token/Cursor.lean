import Sprig.Proofs.Token.Scan
import Sprig.Token.Cursor

/-!
# Cursors and lexers

Where a cursor stands, as the lexer that has not yet read its current token. Whether the next
token is held back or still to be read makes no difference to what a cursor does.
-/

namespace Sprig.TokenCursor

/-- The cursor stands at the next token of a lexer, and may have looked at the one after it. -/
inductive StandsAt : TokenCursor → Lexer → Prop where
  | free {l l' : Lexer} {t : Token} (h : l.next = .ok (t, l')) : StandsAt ⟨l', t, none⟩ l
  | held {l l' l'' : Lexer} {t u : Token} (h : l.next = .ok (t, l')) (h' : l'.next = .ok (u, l'')) :
    StandsAt ⟨l'', t, some u⟩ l

variable {s s' : TokenCursor} {l l' l'' : Lexer} {t u : Token}

namespace StandsAt

lemma exists_next (h : s.StandsAt l) : ∃ l', l.next = .ok (s.current, l') := by
  cases h with
  | free h => exact ⟨_, h⟩
  | held h _ => exact ⟨_, h⟩

lemma current_eq (h : s.StandsAt l) (hnext : l.next = .ok (t, l')) : s.current = t := by
  obtain ⟨l'', h'⟩ := h.exists_next
  rw [hnext] at h'
  cases h'
  rfl

/-- Advancing reads the next token, whether it is held back or not. -/
lemma advance_eq (h : s.StandsAt l) (hnext : l.next = .ok (t, l')) :
    s.advance = (l'.next).map fun (u, l'') => ⟨l'', u, none⟩ := by
  cases h with
  | free h =>
    cases h.symm.trans hnext
    simp only [advance, bind, Except.bind]
    cases l'.next <;> rfl
  | held h h' =>
    cases h.symm.trans hnext
    simp [advance, h', Except.map]

/-- Looking ahead reads the next token as well, and leaves the cursor where it stands. -/
lemma peek_of_ok (h : s.StandsAt l) (hnext : l.next = .ok (t, l'))
    (hnext' : l'.next = .ok (u, l'')) : s.peek = .ok (u, ⟨l'', t, some u⟩) := by
  cases h with
  | free h =>
    cases h.symm.trans hnext
    simp only [peek, hnext', bind, Except.bind]
    rfl
  | held h h' =>
    cases h.symm.trans hnext
    cases h'.symm.trans hnext'
    rfl

lemma peek_of_error {e : SyntaxError} (h : s.StandsAt l) (hnext : l.next = .ok (t, l'))
    (hnext' : l'.next = .error e) : s.peek = .error e := by
  cases h with
  | free h =>
    cases h.symm.trans hnext
    simp only [peek, hnext', bind, Except.bind]
  | held h h' =>
    cases h.symm.trans hnext
    cases h'.symm.trans hnext'

/-- A cursor has as many units before it as its lexer. -/
lemma size_eq (h : s.StandsAt l) : s.size = l.rest.length := by
  cases h with
  | free h =>
    rw [(Lexer.next_eq_ok_iff.mp h).1]
    simp [size]
  | held h h' =>
    rw [(Lexer.next_eq_ok_iff.mp h).1, (Lexer.next_eq_ok_iff.mp h').1]
    simp [size, Nat.add_assoc]

end StandsAt

lemma ofText_of_ok {text : Text} (h : (Lexer.ofText text).next = .ok (t, l)) :
    TokenCursor.ofText text = .ok ⟨l, t, none⟩ := by
  simp only [ofText, h, bind, Except.bind]
  rfl

lemma ofText_of_error {text : Text} {e : SyntaxError} (h : (Lexer.ofText text).next = .error e) :
    TokenCursor.ofText text = .error e := by
  simp only [ofText, h, bind, Except.bind]

end Sprig.TokenCursor
