import Sprig.Proofs.Expr.Text
import Sprig.Proofs.Number.Literal
import Sprig.Proofs.Reader.Basic

/-!
# Reading the text of an expression

A reader that is fed the text of an expression goes through the same values and failures as
`Expr.value` does on the tree, whatever follows the text, if only the last token ends there.
-/

namespace Sprig

namespace Reader

variable {limit : Nat} {r r' : Reader} {env : Bindings} {frames : List Frame} {p : Nat}
  {w rest : Text} {kind : TokenKind}

/-! ### Lexemes in a run -/

lemma run_append (hkind : kind ≠ .endOfFile) (hw : kind.accepts w) (hrest : kind.endsBefore rest)
    (hfeed : r.feed limit ⟨kind, w, p⟩ = .ok r') :
    r.run limit ⟨p, w ++ rest⟩ = r'.run limit ⟨p + w.length, rest⟩ :=
  run_of_ok (Lexer.next_append p hw hrest) hkind hfeed

lemma run_append_of_error {e : Error} (hw : kind.accepts w) (hrest : kind.endsBefore rest)
    (hfeed : r.feed limit ⟨kind, w, p⟩ = .error e) :
    r.run limit ⟨p, w ++ rest⟩ = .error e :=
  run_of_error (Lexer.next_append p hw hrest) hfeed

lemma run_space (hfeed : r.feed limit ⟨.space, [CodeUnit.space], p⟩ = .ok r') :
    r.run limit ⟨p, CodeUnit.space :: rest⟩ = r'.run limit ⟨p + 1, rest⟩ :=
  run_of_ok (Lexer.next_space p rest) (by simp) hfeed

lemma run_openParen (hfeed : r.feed limit ⟨.openParen, [CodeUnit.openParen], p⟩ = .ok r') :
    r.run limit ⟨p, CodeUnit.openParen :: rest⟩ = r'.run limit ⟨p + 1, rest⟩ :=
  run_of_ok (Lexer.next_openParen p rest) (by simp) hfeed

lemma run_closeParen (hfeed : r.feed limit ⟨.closeParen, [CodeUnit.closeParen], p⟩ = .ok r') :
    r.run limit ⟨p, CodeUnit.closeParen :: rest⟩ = r'.run limit ⟨p + 1, rest⟩ :=
  run_of_ok (Lexer.next_closeParen p rest) (by simp) hfeed

lemma run_identifier (hw : w.isIdentifier) (hrest : rest.isApart)
    (hfeed : r.feed limit ⟨.identifier, w, p⟩ = .ok r') :
    r.run limit ⟨p, w ++ rest⟩ = r'.run limit ⟨p + w.length, rest⟩ :=
  have haccepts : TokenKind.identifier.accepts w := hw
  run_append (by decide) haccepts (TokenKind.endsBefore_of_isApart (by decide) hrest) hfeed

end Reader

namespace Expr

/-- The first token of an expression is read whatever follows. -/
lemma next_text_append {e : Expr} (he : e.isWellFormed) (p : Nat) {rest : Text}
    (hrest : rest.isApart) :
    (⟨p, e.text ++ rest⟩ : Lexer).next =
      .ok (⟨e.firstLexeme.1, e.firstLexeme.2, p⟩,
        (⟨p, e.text ++ rest⟩ : Lexer).skip e.firstLexeme.2.length) :=
  Lexer.next_of_lexeme (lexeme?_text_append he hrest)

/-! ### Values -/

@[simp] lemma value_zero (limit : Nat) (env : Bindings) (p : Nat) (e : Expr) :
    e.value limit 0 env p = .error (.tooDeep limit) := by
  cases e <;> simp [value]

variable (limit : Nat) {allowance : Nat} (env : Bindings) (p : Nat)

lemma value_integer (ha : allowance ≠ 0) (w : Text) :
    (integer w).value limit allowance env p =
      if IsWord w.integerValue then .ok w.integerValue
      else .error (.malformed (.literalOutOfRange ⟨.integer, w, p⟩)) := by
  simp only [value, ha, if_false]
  rfl

lemma value_name (ha : allowance ≠ 0) (w : Text) :
    (name w).value limit allowance env p = env.find w := by
  simp only [value, ha, if_false]
  cases hlookup : env.lookup w <;> simp only [Bindings.find, hlookup]

lemma value_operation (ha : allowance ≠ 0) (op : Operator) (left right : Expr) :
    (operation op left right).value limit allowance env p =
      (left.value limit (allowance - 1) env (p + op.name.length + 2)).bind fun m =>
        (right.value limit (allowance - 1) env
          (p + op.name.length + 2 + left.text.length + 1)).bind fun n => .ok (op.apply m n) := by
  simp only [value, ha, if_false]
  rfl

lemma value_letForm (ha : allowance ≠ 0) (inside : LetTail) :
    (letForm inside).value limit allowance env p =
      inside.value limit (allowance - 1) env (p + letName.length + 2) := by
  simp [value, ha]

end Expr

namespace LetTail

lemma value_body (limit allowance : Nat) (env : Bindings) (p : Nat) (e : Expr) :
    (body e).value limit allowance env p = e.value limit allowance env p := by
  simp [value]

lemma value_bind (limit allowance : Nat) (env : Bindings) (p : Nat) (name : Text) (value : Expr)
    (rest : LetTail) :
    (bind name value rest).value limit allowance env p =
      (value.value limit allowance env (p + name.length + 1)).bind fun n =>
        rest.value limit allowance ((name, n) :: env)
          (p + name.length + 1 + value.text.length + 1) := by
  simp only [LetTail.value]
  rfl

end LetTail

/-! ### Reading a text -/

section Run

variable {limit : Nat} {frames : List Frame} {env : Bindings} {l l' : Lexer} {t : Token}

/-- An expression that is nested too deep is refused at its first token. -/
lemma Reader.run_expression_of_le (hdepth : limit ≤ frames.length)
    (hnext : l.next = .ok (t, l')) :
    Reader.run limit ⟨.expression env, frames⟩ l = .error (.tooDeep limit) :=
  Reader.run_of_error hnext (by simp [Reader.feed, Reader.enter, hdepth])

/-- A name without a value is refused at the token after it, whatever that is. -/
lemma Reader.run_value {u : Token × Lexer} (result : Except Error Int)
    (hnext : l.next = .ok u) :
    Reader.run limit ⟨.value result, frames⟩ l =
      result.bind fun n => Reader.run limit ⟨.value (.ok n), frames⟩ l := by
  cases result with
  | ok n => rfl
  | error e => exact Reader.run_of_error hnext rfl

/-- The head of an operator's form. -/
lemma Reader.run_operatorHead (hdepth : frames.length < limit) (op : Operator) (p : Nat)
    (rest : Text) :
    Reader.run limit ⟨.expression env, frames⟩
        ⟨p, CodeUnit.openParen :: (op.name ++ CodeUnit.space :: rest)⟩ =
      Reader.run limit ⟨.expression env, .left op env :: frames⟩
        ⟨p + op.name.length + 2, rest⟩ := by
  calc Reader.run limit ⟨.expression env, frames⟩
        ⟨p, CodeUnit.openParen :: (op.name ++ CodeUnit.space :: rest)⟩
      = Reader.run limit ⟨.head env, frames⟩ ⟨p + 1, op.name ++ CodeUnit.space :: rest⟩ :=
        Reader.run_openParen (by simp [Reader.feed, Reader.enter, hdepth])
    _ = Reader.run limit ⟨.word env op.name, frames⟩
          ⟨p + 1 + op.name.length, CodeUnit.space :: rest⟩ :=
        Reader.run_identifier op.isIdentifier_name (by simp) (by simp [Reader.feed])
    _ = Reader.run limit ⟨.expression env, .left op env :: frames⟩
          ⟨p + 1 + op.name.length + 1, rest⟩ :=
        Reader.run_space (by simp [Reader.feed, Reader.demand])
    _ = _ := by rw [show p + 1 + op.name.length + 1 = p + op.name.length + 2 by omega]

/-- The space between the operands. -/
lemma Reader.run_betweenOperands (op : Operator) (m : Int) (p : Nat) (rest : Text) :
    Reader.run limit ⟨.value (.ok m), .left op env :: frames⟩ ⟨p, CodeUnit.space :: rest⟩ =
      Reader.run limit ⟨.expression env, .right op m :: frames⟩ ⟨p + 1, rest⟩ :=
  Reader.run_space (by simp [Reader.feed, Reader.leave, Reader.demand, Except.bind])

/-- The head of a `let` form. -/
lemma Reader.run_letHead (hdepth : frames.length < limit) (p : Nat) (rest : Text) :
    Reader.run limit ⟨.expression env, frames⟩
        ⟨p, CodeUnit.openParen :: (letName ++ CodeUnit.space :: rest)⟩ =
      Reader.run limit ⟨.inside env, frames⟩ ⟨p + letName.length + 2, rest⟩ := by
  have hlet : Operator.ofName? letName = none := by decide
  calc Reader.run limit ⟨.expression env, frames⟩
        ⟨p, CodeUnit.openParen :: (letName ++ CodeUnit.space :: rest)⟩
      = Reader.run limit ⟨.head env, frames⟩ ⟨p + 1, letName ++ CodeUnit.space :: rest⟩ :=
        Reader.run_openParen (by simp [Reader.feed, Reader.enter, hdepth])
    _ = Reader.run limit ⟨.word env letName, frames⟩
          ⟨p + 1 + letName.length, CodeUnit.space :: rest⟩ :=
        Reader.run_identifier isIdentifier_letName (by simp) (by simp [Reader.feed])
    _ = Reader.run limit ⟨.inside env, frames⟩ ⟨p + 1 + letName.length + 1, rest⟩ :=
        Reader.run_space (by simp [Reader.feed, Reader.demand, hlet])
    _ = _ := by rw [show p + 1 + letName.length + 1 = p + letName.length + 2 by omega]

/-- The name of a binding. -/
lemma Reader.run_boundName {name : Text} (hname : name.isIdentifier) (p : Nat) (rest : Text) :
    Reader.run limit ⟨.inside env, frames⟩ ⟨p, name ++ CodeUnit.space :: rest⟩ =
      Reader.run limit ⟨.expression env, .binding env name :: frames⟩
        ⟨p + name.length + 1, rest⟩ := by
  calc Reader.run limit ⟨.inside env, frames⟩ ⟨p, name ++ CodeUnit.space :: rest⟩
      = Reader.run limit ⟨.name env name, frames⟩ ⟨p + name.length, CodeUnit.space :: rest⟩ :=
        Reader.run_identifier hname (by simp) (by simp [Reader.feed])
    _ = Reader.run limit ⟨.expression env, .binding env name :: frames⟩
          ⟨p + name.length + 1, rest⟩ :=
        Reader.run_space (by simp [Reader.feed])

/-- The body of a `let` is an expression, also if it is a name. -/
lemma Reader.run_body {e : Expr} (he : e.isWellFormed) (p : Nat) (rest : Text) :
    Reader.run limit ⟨.inside env, frames⟩ ⟨p, e.text ++ CodeUnit.closeParen :: rest⟩ =
      Reader.run limit ⟨.expression env, .body :: frames⟩
        ⟨p, e.text ++ CodeUnit.closeParen :: rest⟩ := by
  have hnext := e.next_text_append he p (Text.isApart_closeParen rest)
  have hclose : e.firstLexeme.1 ≠ .closeParen := by cases e <;> simp
  refine Reader.run_inside_of_isBody ?_ hnext hclose
  intro t l' hnext' hkind
  rw [hnext, Except.ok.injEq, Prod.mk.injEq] at hnext'
  obtain ⟨rfl, rfl⟩ := hnext'
  cases e with
  | name w =>
    have hskip : (⟨p, (Expr.name w).text ++ CodeUnit.closeParen :: rest⟩ : Lexer).skip w.length =
        ⟨p + w.length, CodeUnit.closeParen :: rest⟩ := by
      simp [Lexer.skip, Expr.text]
    exact ⟨_, _, by rw [Expr.firstLexeme_name, hskip, Lexer.next_closeParen], rfl⟩
  | integer w => simp at hkind
  | operation op left right => simp at hkind
  | letForm inside => simp at hkind

end Run

mutual

/-- A reader that is fed the text of an expression comes to its value, or fails as it does. -/
theorem Expr.run_text (limit : Nat) (frames : List Frame) (env : Bindings) (e : Expr) (p : Nat)
    (rest : Text) (he : e.isWellFormed) (hrest : rest.isApart)
    (hnext : ∃ u, (⟨p + e.text.length, rest⟩ : Lexer).next = .ok u) :
    Reader.run limit ⟨.expression env, frames⟩ ⟨p, e.text ++ rest⟩ =
      (e.value limit (limit - frames.length) env p).bind fun n =>
        Reader.run limit ⟨.value (.ok n), frames⟩ ⟨p + e.text.length, rest⟩ := by
  by_cases hdepth : limit ≤ frames.length
  · rw [Reader.run_expression_of_le hdepth (e.next_text_append he p hrest),
      Nat.sub_eq_zero_of_le hdepth, Expr.value_zero]
    rfl
  have ha : limit - frames.length ≠ 0 := by omega
  have hsub : limit - frames.length - 1 = limit - (frames.length + 1) := by omega
  match e with
  | .integer w =>
    have hw : w.isInteger := by simpa only [Expr.isWellFormed] using he
    have haccepts : TokenKind.integer.accepts w := hw
    have hends : TokenKind.integer.endsBefore rest :=
      TokenKind.endsBefore_of_isApart (by decide) hrest
    rw [Expr.value_integer limit env p ha]
    simp only [Expr.text]
    by_cases hword : IsWord w.integerValue
    · rw [if_pos hword]
      refine Reader.run_append (by decide) haccepts hends ?_
      simp [Reader.feed, Reader.enter, hdepth, Word.ofText?_of_isInteger hw, hword]
    · rw [if_neg hword]
      refine Reader.run_append_of_error haccepts hends ?_
      simp [Reader.feed, Reader.enter, hdepth, Word.ofText?_of_isInteger hw, hword]
  | .name w =>
    have hw : w.isIdentifier := by simpa only [Expr.isWellFormed] using he
    simp only [Expr.text] at hnext ⊢
    obtain ⟨u, hnext⟩ := hnext
    rw [Expr.value_name limit env p ha, ← Reader.run_value (env.find w) hnext]
    exact Reader.run_identifier hw hrest (by simp [Reader.feed, Reader.enter, hdepth])
  | .operation op left right =>
    obtain ⟨hleft, hright⟩ : left.isWellFormed ∧ right.isWellFormed := by
      simpa [Expr.isWellFormed] using he
    rw [Expr.value_operation limit env p ha, hsub, Expr.text_operation_append,
      Reader.run_operatorHead (not_le.mp hdepth),
      left.run_text limit (.left op env :: frames) env _ _ hleft (by simp)
        ⟨_, Lexer.next_space _ _⟩, List.length_cons]
    cases left.value limit (limit - (frames.length + 1)) env (p + op.name.length + 2) with
    | error e => rfl
    | ok m =>
      simp only [Except.bind]
      rw [Reader.run_betweenOperands, right.run_text limit (.right op m :: frames) env _ _ hright
        (by simp) ⟨_, Lexer.next_closeParen _ _⟩, List.length_cons]
      cases right.value limit (limit - (frames.length + 1)) env
        (p + op.name.length + 2 + left.text.length + 1) with
      | error e => rfl
      | ok n =>
        simp only [Except.bind]
        rw [Reader.run_closeParen (by
          simp [Reader.feed, Reader.leave, Reader.demand, Except.bind]; rfl)]
        congr 2
        simp [Expr.text]
        omega
  | .letForm inside =>
    have hi : inside.isWellFormed := by simpa only [Expr.isWellFormed] using he
    rw [Expr.value_letForm limit env p ha, hsub, Expr.text_letForm_append,
      Reader.run_letHead (not_le.mp hdepth), inside.run_text limit frames env _ rest hi]
    congr 1
    funext n
    congr 2
    simp [Expr.text]
    omega

/-- The same for what stands inside a `let`, up to its closing parenthesis. -/
theorem LetTail.run_text (limit : Nat) (frames : List Frame) (env : Bindings) (inside : LetTail)
    (p : Nat) (rest : Text) (hi : inside.isWellFormed) :
    Reader.run limit ⟨.inside env, frames⟩ ⟨p, inside.text ++ CodeUnit.closeParen :: rest⟩ =
      (inside.value limit (limit - (frames.length + 1)) env p).bind fun n =>
        Reader.run limit ⟨.value (.ok n), frames⟩ ⟨p + inside.text.length + 1, rest⟩ := by
  match inside with
  | .body e =>
    have he : e.isWellFormed := by simpa only [LetTail.isWellFormed] using hi
    simp only [LetTail.value_body, LetTail.text]
    rw [Reader.run_body he, e.run_text limit (.body :: frames) env p _ he (by simp)
      ⟨_, Lexer.next_closeParen _ _⟩, List.length_cons]
    congr 1
    funext n
    exact Reader.run_closeParen (by simp [Reader.feed, Reader.leave, Reader.demand, Except.bind])
  | .bind name value tail =>
    obtain ⟨⟨hname, hvalue⟩, htail⟩ :
        (name.isIdentifier ∧ value.isWellFormed) ∧ tail.isWellFormed := by
      simpa [LetTail.isWellFormed] using hi
    have htext : (LetTail.bind name value tail).text ++ CodeUnit.closeParen :: rest =
        name ++ CodeUnit.space :: (value.text ++ CodeUnit.space ::
          (tail.text ++ CodeUnit.closeParen :: rest)) := by
      simp [LetTail.text]
    rw [LetTail.value_bind, htext, Reader.run_boundName hname,
      value.run_text limit (.binding env name :: frames) env _ _ hvalue (by simp)
        ⟨_, Lexer.next_space _ _⟩, List.length_cons]
    cases value.value limit (limit - (frames.length + 1)) env (p + name.length + 1) with
    | error e => rfl
    | ok m =>
      simp only [Except.bind]
      have hspace : Reader.feed limit ⟨.value (.ok m), .binding env name :: frames⟩
          ⟨.space, [CodeUnit.space], p + name.length + 1 + value.text.length⟩ =
            .ok ⟨.inside ((name, m) :: env), frames⟩ := by
        simp [Reader.feed, Reader.leave, Reader.demand, Except.bind]
      rw [Reader.run_space hspace, tail.run_text limit frames _ _ rest htail]
      congr 1
      funext n
      congr 2
      simp [LetTail.text]
      omega

end

end Sprig
