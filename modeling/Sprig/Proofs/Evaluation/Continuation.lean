import Sprig.Proofs.Evaluation.Simulation
import Sprig.Proofs.Expr.Text

/-!
# Texts that go on

The tokens of a text stay what they are when the text goes on, if it does so with neither a letter
nor a digit: a fault stays the fault, and without one the tokens of what follows come after them. So
an evaluation that fails before it gets to what follows fails in the same way whatever that is.
-/

namespace Sprig

variable {rest : Text}

/-! ### Tokens -/

lemma TokenKind.endsBefore_append {kind : TokenKind} {w : Text} (hkind : kind ≠ .endOfFile)
    (hw : kind.endsBefore w) (hrest : rest.isApart) : kind.endsBefore (w ++ rest) := by
  cases w with
  | nil => exact endsBefore_of_isApart hkind hrest
  | cons u w => cases kind <;> simp_all [endsBefore]

/-- Of what follows a text only a digit could make a token of a minus sign at its end. -/
lemma Text.lexeme?_append_eq_none {w : Text} (h : w.lexeme? = none) (hrest : rest.isApart) :
    (w ++ rest).lexeme? = none := by
  cases w with
  | nil => cases h
  | cons u w =>
    have hstart : startsWithDigit w = false → startsWithDigit (w ++ rest) = false := by
      intro hw
      have hends : TokenKind.integer.endsBefore (w ++ rest) :=
        TokenKind.endsBefore_append (by decide)
          (by simpa [TokenKind.endsBefore, startsWithDigit] using hw) hrest
      simpa [TokenKind.endsBefore, startsWithDigit] using hends
    simp only [lexeme?] at h
    split_ifs at h with hspace hopen hclose hinteger hletter
    rw [Bool.not_eq_true, Bool.or_eq_false_iff] at hinteger
    obtain ⟨hdigit, hminus⟩ := hinteger
    rw [Bool.and_eq_false_iff] at hminus
    have hminus' : (decide (u = CodeUnit.minus) && startsWithDigit (w ++ rest)) = false := by
      rcases hminus with hu | hw
      · rw [hu, Bool.false_and]
      · rw [hstart hw, Bool.and_false]
    simp [lexeme?, hspace, hopen, hclose, hdigit, hminus', hletter]

namespace Lexer

variable {l l' : Lexer} {t : Token}

/-- A lexer with more text after what it has left. -/
def followedBy (l : Lexer) (rest : Text) : Lexer := { l with rest := l.rest ++ rest }

lemma next_followedBy_of_ok (h : l.next = .ok (t, l')) (hkind : t.kind ≠ .endOfFile)
    (hrest : rest.isApart) : (l.followedBy rest).next = .ok (t, l'.followedBy rest) := by
  obtain ⟨htext, hposition, hposition', haccepts, hends⟩ := next_eq_ok_iff.mp h
  apply next_eq_ok_iff.mpr
  refine ⟨?_, hposition, hposition', haccepts, TokenKind.endsBefore_append hkind hends hrest⟩
  simp [followedBy, htext]

lemma next_followedBy_of_error {c : SyntaxError} (h : l.next = .error c) (hrest : rest.isApart) :
    (l.followedBy rest).next = .error c := by
  obtain ⟨p, w⟩ := l
  cases hw : w.lexeme? with
  | some u => simp [next, hw] at h
  | none =>
    simp only [next, followedBy, hw, Text.lexeme?_append_eq_none hw hrest] at h ⊢
    cases w with
    | nil => cases hw
    | cons u w => exact h

end Lexer

/-- The tokens of a text, and if it has no fault those of what follows it in the place of the end
of the input. -/
def Scan.andThen (s s' : Scan) : Scan :=
  match s.fault with
  | none => s'.after s.tokens.dropLast
  | some _ => s

lemma Scan.after_andThen {ts : List Token} {s s' : Scan} (h : s.tokens ≠ [] ∨ s.fault ≠ none) :
    (s.after ts).andThen s' = (s.andThen s').after ts := by
  obtain ⟨us, fault⟩ := s
  cases fault with
  | none =>
    have hne : us ≠ [] := by simpa using h
    simp [andThen, after, List.dropLast_append_of_ne_nil hne]
  | some c => rfl

/-- The tokens of a text do not depend on what follows it. -/
theorem Lexer.scan_followedBy (l : Lexer) (hrest : rest.isApart) :
    (l.followedBy rest).scan =
      l.scan.andThen (⟨l.position + l.rest.length, rest⟩ : Lexer).scan := by
  refine scan_induction (motive := fun l s => (l.followedBy rest).scan =
    s.andThen (⟨l.position + l.rest.length, rest⟩ : Lexer).scan) ?_ ?_ ?_ l
  · intro l c h
    exact scan_of_error (next_followedBy_of_error h hrest)
  · intro l t l' h hkind
    obtain ⟨p, w⟩ := l
    obtain rfl : w = [] := rest_eq_nil_of_next h hkind
    simp [followedBy, Scan.andThen]
  · intro l t l' h hkind ih
    obtain ⟨htext, -, hposition, -, -⟩ := next_eq_ok_iff.mp h
    have hlength : l.position + l.rest.length = l'.position + l'.rest.length := by
      rw [htext, hposition, List.length_append]
      omega
    have hleft : l'.scan.tokens ≠ [] ∨ l'.scan.fault ≠ none := by
      cases hfault : l'.scan.fault with
      | none =>
        obtain ⟨ts, u, hscan, -⟩ := l'.exists_scan_eq_append hfault
        simp [hscan]
      | some c => simp
    rw [scan_of_ok (next_followedBy_of_ok h hkind hrest) hkind, ih, Scan.after_andThen hleft,
      hlength]

lemma Lexer.scan_ofText_append (source : Text) (hrest : rest.isApart) :
    (ofText (source ++ rest)).scan =
      (ofText source).scan.andThen (⟨source.length, rest⟩ : Lexer).scan := by
  have h := (ofText source).scan_followedBy hrest
  simpa only [ofText, followedBy, Nat.zero_add] using h

/-! ### Evaluations -/

section Evaluations

variable {limit : Nat} {source : Text} {e : Error}

/-- A text that goes on is read to its end first, and then what follows it. -/
lemma evaluate_append_of_fault_eq_none (hfault : (Lexer.ofText source).scan.fault = none)
    (hrest : rest.isApart) :
    evaluate limit (source ++ rest) =
      (Reader.start.feedAll limit (Lexer.ofText source).scan.tokens.dropLast).bind fun r =>
        r.run limit ⟨source.length, rest⟩ := by
  have hscan := Lexer.scan_ofText_append source hrest
  simp only [Scan.andThen, hfault] at hscan
  rw [evaluate_eq_run, Reader.run, hscan, Scan.tokens_after, Scan.fault_after,
    Reader.feedAll_append]
  cases Reader.start.feedAll limit (Lexer.ofText source).scan.tokens.dropLast with
  | error e => rfl
  | ok r => rfl

lemma evaluate_append_of_fault {c : SyntaxError}
    (hfault : (Lexer.ofText source).scan.fault = some c) (hrest : rest.isApart) :
    evaluate limit (source ++ rest) = evaluate limit source := by
  have hscan := Lexer.scan_ofText_append source hrest
  simp only [Scan.andThen, hfault] at hscan
  rw [evaluate_eq_run, evaluate_eq_run, Reader.run, Reader.run, hscan]

/-- An error is decided by the text before it. If one is found before a unit that starts no token
is met at the end of a text, then it is found whatever the text goes on with, as long as its last
token ends there. -/
theorem evaluate_append_of_error (h : evaluate limit (source ++ "$") = .error e)
    (hne : e ≠ .malformed (.unexpectedUnit 0x24 source.length)) (hrest : rest.isApart) :
    evaluate limit (source ++ rest) = .error e := by
  have hdollar : Text.isApart "$" := by decide
  cases hfault : (Lexer.ofText source).scan.fault with
  | some c =>
    rw [evaluate_append_of_fault hfault hdollar] at h
    rw [evaluate_append_of_fault hfault hrest, h]
  | none =>
    rw [evaluate_append_of_fault_eq_none hfault hdollar] at h
    rw [evaluate_append_of_fault_eq_none hfault hrest]
    cases htokens : Reader.start.feedAll limit (Lexer.ofText source).scan.tokens.dropLast with
    | error e' =>
      rw [htokens] at h
      exact h
    | ok r =>
      -- all tokens of the text are taken, so it is the unit after them that is refused
      have hnext : (⟨source.length, "$"⟩ : Lexer).next =
          .error (.unexpectedUnit 0x24 source.length) := rfl
      rw [htokens, Except.bind, Reader.run_of_fault hnext] at h
      exact absurd (Except.error.inj h).symm hne

/-- A third operand is reported whatever follows it. -/
theorem evaluate_append_of_error_third :
    evaluate 2 ("(add 1 2 3" ++ "$") =
      .error (.malformed (.missing .closeParen (.afterSecondOperand .add) ⟨.integer, "3", 9⟩)) ∧
    evaluate 2 ("(add 1 2 3" ++ ") -") =
      .error (.malformed (.missing .closeParen (.afterSecondOperand .add) ⟨.integer, "3", 9⟩)) := by
  have hthird : evaluate 2 ("(add 1 2 3" ++ "$") =
      .error (.malformed (.missing .closeParen (.afterSecondOperand .add)
        ⟨.integer, "3", 9⟩)) := by
    decide +kernel
  exact ⟨hthird, evaluate_append_of_error hthird (by decide) (by decide)⟩

end Evaluations

end Sprig
