import Sprig.Proofs.Evaluation.Continuation
import Sprig.Proofs.Format.Preservation

/-!
# Errors of the evaluation and the token after them

A name is looked up, and the word at the head of a form is judged, only after the token that
follows has been read. So where a text ends with the name or the word that an evaluation fails at,
the error stays the same if the text goes on with a token, but a unit that starts no token is found
first.
-/

namespace Sprig

variable {limit : Nat} {source rest : Text} {e : Error}

lemma Reader.feed_of_kind {r : Reader} {t : Token} (h : r.feed limit t = .error e)
    (he : e.kind = .evaluation) (ht : t.kind = .endOfFile) (u : Token) :
    r.feed limit u = .error e := by
  have hmalformed : ∀ c, e ≠ .malformed c := by
    rintro c rfl
    cases he
  have hdepth : ∀ n, e ≠ .tooDeep n := by
    rintro n rfl
    cases he
  obtain ⟨-, hany | ⟨hclose, -⟩⟩ := isSettled_of_feed_eq_error h hmalformed hdepth
  · exact hany u
  · rw [ht] at hclose
    cases hclose

/-- An evaluation error that the tokens of a text do not show by themselves waits for one more
token. -/
lemma evaluate_append_of_pending {r : Reader} (hfault : (Lexer.ofText source).scan.fault = none)
    (htokens : Reader.start.feedAll limit (Lexer.ofText source).scan.tokens.dropLast = .ok r)
    (h : evaluate limit source = .error e) (he : e.kind = .evaluation) (hrest : rest.isApart) :
    evaluate limit (source ++ rest) =
      if rest.lexeme?.isSome then .error e
      else .error (.malformed (.unexpectedUnit (rest.headD 0) source.length)) := by
  -- the end of the input is the token that the error has been waiting for
  have hend : (⟨source.length, []⟩ : Lexer).next =
      .ok (⟨.endOfFile, [], source.length⟩, ⟨source.length, []⟩) := rfl
  have hrun : r.run limit ⟨source.length, []⟩ = .error e := by
    have hnil : evaluate limit (source ++ []) = _ := evaluate_append_of_fault_eq_none hfault rfl
    rw [List.append_nil, h, htokens] at hnil
    exact hnil.symm
  have hfeed : r.feed limit ⟨.endOfFile, [], source.length⟩ = .error e := by
    cases hfed : r.feed limit ⟨.endOfFile, [], source.length⟩ with
    | error e' =>
      rw [Reader.run_of_error hend hfed] at hrun
      rw [Except.error.inj hrun]
    | ok r' =>
      obtain ⟨rfl, value, rfl⟩ := (Reader.moves_of_feed hfed).eq_of_endOfFile rfl
      rw [Reader.run_value_nil] at hrun
      cases hrun
  rw [evaluate_append_of_fault_eq_none hfault hrest, htokens]
  change r.run limit ⟨source.length, rest⟩ = _
  cases hlexeme : rest.lexeme? with
  | none =>
    rw [Reader.run_of_fault (Lexer.next_eq_error_iff.mpr ⟨hlexeme, rfl⟩)]
    rfl
  | some lexeme =>
    have hnext := Lexer.next_of_lexeme (l := ⟨source.length, rest⟩) hlexeme
    rw [Reader.run_of_error hnext (Reader.feed_of_kind hfeed he rfl _)]
    rfl

/-- An evaluation error stays the same when the text goes on, if the text shows it by itself or what
follows starts with a token. If neither is so, the unit that starts no token is found instead. -/
theorem evaluate_append_of_kind (h : evaluate limit source = .error e) (he : e.kind = .evaluation)
    (hrest : rest.isApart) :
    evaluate limit (source ++ rest) =
      if rest.lexeme?.isSome ∨ evaluate limit (source ++ "$") = .error e then .error e
      else .error (.malformed (.unexpectedUnit (rest.headD 0) source.length)) := by
  have hdollar : Text.isApart "$" := by decide
  cases hfault : (Lexer.ofText source).scan.fault with
  | some c =>
    rw [evaluate_append_of_fault hfault hrest, evaluate_append_of_fault hfault hdollar, h,
      if_pos (Or.inr rfl)]
  | none =>
    cases htokens : Reader.start.feedAll limit (Lexer.ofText source).scan.tokens.dropLast with
    | error e' =>
      have hshown : ∀ w : Text, w.isApart → evaluate limit (source ++ w) = .error e' := by
        intro w hw
        rw [evaluate_append_of_fault_eq_none hfault hw, htokens]
        rfl
      obtain rfl : e = e' := by
        have hnil := hshown [] rfl
        rw [List.append_nil, h] at hnil
        exact Except.error.inj hnil
      rw [hshown rest hrest, if_pos (Or.inr (hshown "$" hdollar))]
    | ok r =>
      have hpending := evaluate_append_of_pending hfault htokens h he hdollar
      have hne : evaluate limit (source ++ "$") ≠ .error e := by
        rw [hpending]
        rintro heq
        obtain rfl := Except.error.inj heq
        cases he
      rw [evaluate_append_of_pending hfault htokens h he hrest]
      simp only [hne, or_false]

/-- The name at the end is looked up after the closing parenthesis that follows has been read. -/
theorem evaluate_append_of_kind_name :
    evaluate 2 "(add 1 x" = .error (.unboundName "x") ∧
    evaluate 2 ("(add 1 x" ++ ") $") = .error (.unboundName "x") ∧
    evaluate 2 ("(add 1 x" ++ "$") = .error (.malformed (.unexpectedUnit 0x24 8)) := by
  have hname : evaluate 2 "(add 1 x" = .error (.unboundName "x") := by decide +kernel
  have hclose : evaluate 2 ("(add 1 x" ++ ") $") = _ :=
    evaluate_append_of_kind hname rfl (by decide)
  have hdollar : evaluate 2 ("(add 1 x" ++ "$") = _ :=
    evaluate_append_of_kind hname rfl (by decide)
  have hlexeme : ("$" : Text).lexeme? = none := rfl
  have hne : evaluate 2 ("(add 1 x" ++ "$") ≠ .error (.unboundName "x") := by decide +kernel
  refine ⟨hname, ?_, ?_⟩
  · rw [hclose, if_pos (Or.inl (by decide))]
  · rw [hdollar, if_neg (by simp [hlexeme, hne])]
    rfl

/-- A unit that starts no token, right after the name or the word that an evaluation fails at, turns
the error into a syntax error. -/
theorem not_forall_evaluate_append :
    ¬ ∀ (limit : Nat) (source rest : Text) (e : Error), evaluate limit source = .error e →
      e.kind = .evaluation → rest.isApart → evaluate limit (source ++ rest) = .error e := by
  intro hall
  have hname := hall 1 "x" "$" (.unboundName "x") (by decide +kernel) rfl (by decide)
  exact absurd hname (by decide +kernel)

end Sprig
