import Sprig.Proofs.Expr.Nesting
import Sprig.Proofs.Token.Position

/-!
# Reports after the second operand

An operator's form closes after its second operand. If something else follows, that is reported, and
if it is a space before a third operand, the operand is. A second space is taken for one more thing
that follows the first, and a unit that starts no token is found before the closing parenthesis is
missed.
-/

namespace Sprig

/-- Whether an operand starts with a token of the kind. -/
def TokenKind.startsOperand : TokenKind → Bool
  | integer | identifier | openParen => true
  | closeParen | space | endOfFile => false

/-- What is surplus at a place of a text where a form has to close: the token that stands there or,
if that is a space directly before an operand, the first token of the operand. -/
inductive Token.IsSurplus (source : Text) (p : Nat) : Token → Prop
  | next {t : Token} (hstands : t.StandsIn source) (hposition : t.position = p)
    (hlast : t.kind = .space → ∀ u : Token, u.StandsIn source → u.position = p + 1 →
      u.kind.startsOperand = false) : IsSurplus source p t
  | operand {space t : Token} (hspace : space.StandsIn source) (hposition : space.position = p)
    (hkind : space.kind = .space) (hstands : t.StandsIn source) (hnext : t.position = p + 1)
    (hoperand : t.kind.startsOperand) : IsSurplus source p t

/-- An error that asks for a closing parenthesis in the place of a token. -/
structure SyntaxError.AsksToClose (c : SyntaxError) (found : Token) : Prop where
  expected?_eq : c.expected? = some .closeParen
  found?_eq : c.found? = some found
  position?_eq : c.position? = some found.position

lemma SyntaxError.asksToClose_missing (place : Place) (found : Token) :
    (SyntaxError.missing .closeParen place found).AsksToClose found :=
  ⟨rfl, rfl, rfl⟩

/-- The text of an operator's form without its closing parenthesis. -/
def Expr.openOperation (op : Operator) (left right : Expr) : Text :=
  [CodeUnit.openParen] ++ op.name ++ [CodeUnit.space] ++ left.text ++ [CodeUnit.space] ++ right.text

/-! ### The token after a place -/

section Places

variable {before rest w : Text} {kind : TokenKind}

lemma Token.standsIn_append (h : rest.lexeme? = some (kind, w)) :
    (⟨kind, w, before.length⟩ : Token).StandsIn (before ++ rest) :=
  ⟨by simp, by simpa using h⟩

lemma Token.standsIn_append_space (before rest : Text) :
    (⟨.space, [CodeUnit.space], before.length⟩ : Token).StandsIn
      (before ++ CodeUnit.space :: rest) :=
  standsIn_append rfl

lemma Token.standsIn_append_space_cons (h : rest.lexeme? = some (kind, w)) :
    (⟨kind, w, before.length + 1⟩ : Token).StandsIn (before ++ CodeUnit.space :: rest) :=
  ⟨by simp, by simpa using h⟩

/-- There is one token after a space. -/
lemma Token.StandsIn.kind_eq {u : Token}
    (hstands : u.StandsIn (before ++ CodeUnit.space :: rest))
    (hposition : u.position = before.length + 1) (h : rest.lexeme? = some (kind, w)) :
    u.kind = kind := by
  have hlexeme := hstands.lexeme?_drop
  rw [hposition, List.drop_length_add_append, List.drop_one, List.tail_cons, h] at hlexeme
  exact (congrArg Prod.fst (Option.some.inj hlexeme)).symm

lemma Token.isSurplus_append (h : rest.lexeme? = some (kind, w)) (hkind : kind ≠ .space) :
    IsSurplus (before ++ CodeUnit.space :: rest) before.length
      (if kind = .closeParen ∨ kind = .endOfFile then ⟨.space, [CodeUnit.space], before.length⟩
        else ⟨kind, w, before.length + 1⟩) := by
  have hspace := standsIn_append_space before rest
  split_ifs with hclose
  · refine .next hspace rfl fun _ u hu hposition => ?_
    rw [hu.kind_eq hposition h]
    rcases hclose with rfl | rfl <;> rfl
  · have hoperand : kind.startsOperand := by
      cases kind <;> simp_all [TokenKind.startsOperand]
    exact .operand hspace rfl rfl (standsIn_append_space_cons h) rfl hoperand

end Places

/-! ### Runs -/

namespace Reader

variable {limit : Nat} {op : Operator} {m n : Int} {frames : List Frame} {p : Nat}
  {rest w : Text} {kind : TokenKind}

lemma run_start_openParen (p : Nat) (rest : Text) :
    start.run limit ⟨p, CodeUnit.openParen :: rest⟩ =
      run limit ⟨.expression [], []⟩ ⟨p, CodeUnit.openParen :: rest⟩ :=
  run_congr (Lexer.next_openParen p rest) (by simp [start, feed])

lemma run_right_openParen :
    run limit ⟨.value (.ok n), .right op m :: frames⟩ ⟨p, CodeUnit.openParen :: rest⟩ =
      .error (.malformed (.missing .closeParen (.afterSecondOperand op)
        ⟨.openParen, [CodeUnit.openParen], p⟩)) :=
  run_of_error (Lexer.next_openParen p rest) (by simp [feed, leave, demand, Except.bind])

lemma run_right_space :
    run limit ⟨.value (.ok n), .right op m :: frames⟩ ⟨p, CodeUnit.space :: rest⟩ =
      run limit ⟨.extra op ⟨.space, [CodeUnit.space], p⟩, frames⟩ ⟨p + 1, rest⟩ :=
  run_space (by simp [feed, leave, Except.bind])

/-- After a space, the next token decides which of the two is reported. -/
lemma run_right_of_lexeme (h : rest.lexeme? = some (kind, w)) :
    run limit ⟨.value (.ok n), .right op m :: frames⟩ ⟨p, CodeUnit.space :: rest⟩ =
      .error (.malformed (.missing .closeParen (.afterSecondOperand op)
        (if kind = .closeParen ∨ kind = .endOfFile then ⟨.space, [CodeUnit.space], p⟩
          else ⟨kind, w, p + 1⟩))) := by
  rw [run_right_space]
  exact run_of_error (Lexer.next_of_lexeme h) rfl

lemma run_right_of_lexeme_eq_none (h : rest.lexeme? = none) :
    run limit ⟨.value (.ok n), .right op m :: frames⟩ ⟨p, CodeUnit.space :: rest⟩ =
      .error (.malformed (.unexpectedUnit (rest.headD 0) (p + 1))) := by
  rw [run_right_space]
  exact run_of_fault (Lexer.next_eq_error_iff.mpr ⟨h, rfl⟩)

end Reader

/-! ### Texts -/

section Surplus

variable {limit : Nat} {op : Operator} {a b : Expr} {m n : Int} {t rest w : Text}
  {kind : TokenKind}

/-- The evaluation of a form whose operands have values comes to what follows them. -/
lemma evaluate_openOperation_append (ha : a.isWellFormed) (hb : b.isWellFormed)
    (hm : evaluate limit a.text = .ok m) (hn : evaluate limit b.text = .ok n)
    (hlimit : (Expr.operation op a b).nesting ≤ limit) (hapart : t.isApart)
    (hnext : ∃ u, (⟨(Expr.openOperation op a b).length, t⟩ : Lexer).next = .ok u) :
    evaluate limit (Expr.openOperation op a b ++ t) =
      Reader.run limit ⟨.value (.ok n), [.right op m]⟩
        ⟨(Expr.openOperation op a b).length, t⟩ := by
  obtain ⟨hleft, hright, hpos⟩ : a.nesting ≤ limit - 1 ∧ b.nesting ≤ limit - 1 ∧ 0 < limit := by
    simp only [Expr.nesting] at hlimit
    omega
  have htext : Expr.openOperation op a b ++ t = CodeUnit.openParen :: (op.name ++
      CodeUnit.space :: (a.text ++ CodeUnit.space :: (b.text ++ t))) := by
    simp [Expr.openOperation]
  have hlength : 0 + op.name.length + 2 + a.text.length + 1 + b.text.length =
      (Expr.openOperation op a b).length := by
    simp [Expr.openOperation]
    omega
  rw [← hlength] at hnext
  have hdepth : ([] : List Frame).length < limit := hpos
  rw [htext, evaluate_eq_run, Lexer.ofText, Reader.run_start_openParen,
    Reader.run_operatorHead hdepth,
    a.run_text limit [.left op []] [] _ _ ha (by simp) ⟨_, Lexer.next_space _ _⟩,
    List.length_singleton, Expr.value_of_evaluate ha hm hleft, Except.bind,
    Reader.run_betweenOperands, b.run_text limit [.right op m] [] _ _ hb hapart hnext,
    List.length_singleton, Expr.value_of_evaluate hb hn hright, Except.bind, hlength]

/-- What is reported after the second operand of a form whose operands have values. If one space at
most stands before the next token, it is that token, or the space if no operand starts with the
token. Of two spaces it is the second one. A unit after a space that starts no token is reported
instead. -/
theorem evaluate_surplus (ha : a.isWellFormed) (hb : b.isWellFormed)
    (hm : evaluate limit a.text = .ok m) (hn : evaluate limit b.text = .ok n)
    (hlimit : (Expr.operation op a b).nesting ≤ limit)
    (ht : t.head? = some CodeUnit.space ∨ t.head? = some CodeUnit.openParen) :
    ((∀ rest : Text, t = CodeUnit.space :: rest →
        rest.lexeme? ≠ none ∧ rest.head? ≠ some CodeUnit.space) →
      ∃ c found, evaluate limit (Expr.openOperation op a b ++ t) = .error (.malformed c) ∧
        Token.IsSurplus (Expr.openOperation op a b ++ t) (Expr.openOperation op a b).length found ∧
        c.AsksToClose found) ∧
    (∀ rest : Text, t = CodeUnit.space :: CodeUnit.space :: rest →
      ∃ c, evaluate limit (Expr.openOperation op a b ++ t) = .error (.malformed c) ∧
        c.AsksToClose ⟨.space, [CodeUnit.space], (Expr.openOperation op a b).length + 1⟩) ∧
    ∀ rest : Text, t = CodeUnit.space :: rest → rest.lexeme? = none →
      evaluate limit (Expr.openOperation op a b ++ t) =
        .error (.malformed (.unexpectedUnit (rest.headD 0)
          ((Expr.openOperation op a b).length + 1))) := by
  have hspace (rest : Text) := evaluate_openOperation_append ha hb hm hn hlimit
    (Text.isApart_space rest) ⟨_, Lexer.next_space _ _⟩
  refine ⟨fun hafter => ?_, ?_, ?_⟩
  · rcases ht with ht | ht
    · obtain ⟨rest, rfl⟩ := List.head?_eq_some_iff.mp ht
      obtain ⟨hlexeme, hhead⟩ := hafter rest rfl
      obtain ⟨⟨kind, w⟩, hlexeme⟩ := Option.ne_none_iff_exists'.mp hlexeme
      have hkind : kind ≠ .space := by
        rintro rfl
        obtain ⟨tail, rfl, haccepts, -⟩ := Text.lexeme?_eq_some_iff.mp hlexeme
        obtain rfl : w = [CodeUnit.space] := by simpa [TokenKind.accepts] using haccepts
        exact hhead rfl
      refine ⟨_, _, ?_, Token.isSurplus_append hlexeme hkind,
        SyntaxError.asksToClose_missing (.afterSecondOperand op) _⟩
      rw [hspace, Reader.run_right_of_lexeme hlexeme]
    · obtain ⟨rest, rfl⟩ := List.head?_eq_some_iff.mp ht
      refine ⟨_, _, ?_, .next (Token.standsIn_append rfl) rfl (by simp),
        SyntaxError.asksToClose_missing (.afterSecondOperand op) _⟩
      rw [evaluate_openOperation_append ha hb hm hn hlimit (by simp)
        ⟨_, Lexer.next_openParen _ _⟩, Reader.run_right_openParen]
  · rintro rest rfl
    have hlexeme : Text.lexeme? (CodeUnit.space :: rest) = some (.space, [CodeUnit.space]) := rfl
    refine ⟨_, ?_, SyntaxError.asksToClose_missing (.afterSecondOperand op) _⟩
    rw [hspace, Reader.run_right_of_lexeme hlexeme]
    rfl
  · rintro rest rfl hlexeme
    rw [hspace, Reader.run_right_of_lexeme_eq_none hlexeme]

/-- A third operand after a space is what is reported. -/
theorem evaluate_surplus_integer :
    evaluate 2 "1" = .ok 1 ∧ evaluate 2 "2" = .ok 2 ∧
    ∃ c found, evaluate 2 "(mult 1 2 3)" = .error (.malformed c) ∧
      Token.IsSurplus "(mult 1 2 3)" 9 found ∧ c.AsksToClose found := by
  have hone : evaluate 2 (Expr.integer "1").text = .ok 1 := by decide +kernel
  have htwo : evaluate 2 (Expr.integer "2").text = .ok 2 := by decide +kernel
  have hsurplus := @evaluate_surplus 2 .mult (.integer "1") (.integer "2") 1 2 " 3)" (by decide)
    (by decide) hone htwo (by decide) (by decide)
  refine ⟨hone, htwo, hsurplus.1 ?_⟩
  rintro rest ⟨⟩
  decide

/-- It is not always the first token after the second operand, or the operand after it: of two
spaces the second one is reported. -/
theorem not_forall_evaluate_surplus :
    ¬ ∀ (limit : Nat) (op : Operator) (a b : Expr) (m n : Int) (t : Text),
      a.isWellFormed → b.isWellFormed →
      evaluate limit a.text = .ok m → evaluate limit b.text = .ok n →
      (Expr.operation op a b).nesting ≤ limit →
      (t.head? = some CodeUnit.space ∨ t.head? = some CodeUnit.openParen) →
      ∃ c found, evaluate limit (Expr.openOperation op a b ++ t) = .error (.malformed c) ∧
        Token.IsSurplus (Expr.openOperation op a b ++ t) (Expr.openOperation op a b).length found ∧
        c.AsksToClose found := by
  intro h
  obtain ⟨c, found, hevaluate, hsurplus, hasks⟩ := h 2 .add (.integer "1") (.integer "2") 1 2
    "  3)" (by decide) (by decide) (by decide +kernel) (by decide +kernel) (by decide) (by decide)
  have hsecond : evaluate 2 (Expr.openOperation .add (.integer "1") (.integer "2") ++ "  3)") =
      .error (.malformed (.missing .closeParen (.afterSecondOperand .add) ⟨.space, " ", 9⟩)) := by
    decide +kernel
  obtain rfl : c = _ := Error.malformed.inj (Except.error.inj (hevaluate.symm.trans hsecond))
  obtain rfl : found = ⟨.space, " ", 9⟩ := (Option.some.inj hasks.found?_eq).symm
  cases hsurplus with
  | next _ hposition => exact absurd hposition (by decide)
  | operand _ _ _ _ _ hoperand => exact absurd hoperand (by decide)

end Surplus

end Sprig
