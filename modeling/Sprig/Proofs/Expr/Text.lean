import Sprig.Expr.Basic
import Sprig.Proofs.Token.Lexeme

/-!
# The text of an expression

No two expressions have the same text, nor do the texts of two expressions become the same by what
follows them, as long as their last tokens end there. The first token tells the kinds of
expressions apart, and the token after a name tells a binding from the body of a `let`.
-/

namespace Sprig

/-- The text goes on with neither a letter nor a digit, so any token before it ends there. -/
def Text.isApart (rest : Text) : Bool := !rest.head?.any CodeUnit.isAlphanumeric

@[simp] lemma Text.isApart_space (rest : Text) : isApart (CodeUnit.space :: rest) := by
  simp [isApart, show CodeUnit.isAlphanumeric CodeUnit.space = false by decide]

@[simp] lemma Text.isApart_closeParen (rest : Text) : isApart (CodeUnit.closeParen :: rest) := by
  simp [isApart, show CodeUnit.isAlphanumeric CodeUnit.closeParen = false by decide]

@[simp] lemma Text.isApart_openParen (rest : Text) : isApart (CodeUnit.openParen :: rest) := by
  simp [isApart, show CodeUnit.isAlphanumeric CodeUnit.openParen = false by decide]

lemma TokenKind.endsBefore_of_isApart {kind : TokenKind} {rest : Text} (hkind : kind ≠ .endOfFile)
    (hrest : rest.isApart) : kind.endsBefore rest := by
  cases rest with
  | nil => cases kind <;> simp_all [endsBefore]
  | cons u rest =>
    have hu : u.isAlphanumeric = false := by simpa [Text.isApart] using hrest
    have hdigit : u.isDigit = false := by
      by_contra h
      simp [CodeUnit.isAlphanumeric_of_isDigit (by simpa using h)] at hu
    cases kind <;> simp_all [endsBefore]

lemma Operator.isIdentifier_name (op : Operator) : op.name.isIdentifier := by
  cases op <;> decide

lemma isIdentifier_letName : letName.isIdentifier := by decide

/-! ### Texts of forms -/

namespace Expr

lemma text_operation_append (op : Operator) (left right : Expr) (rest : Text) :
    (operation op left right).text ++ rest =
      CodeUnit.openParen :: (op.name ++ CodeUnit.space :: (left.text ++ CodeUnit.space ::
        (right.text ++ CodeUnit.closeParen :: rest))) := by
  simp [text]

lemma text_letForm_append (inside : LetTail) (rest : Text) :
    (letForm inside).text ++ rest =
      CodeUnit.openParen :: (letName ++ CodeUnit.space ::
        (inside.text ++ CodeUnit.closeParen :: rest)) := by
  simp [text]

end Expr

namespace LetTail

lemma text_bind_append (name : Text) (value : Expr) (tail : LetTail) (rest : Text) :
    (bind name value tail).text ++ rest =
      name ++ CodeUnit.space :: (value.text ++ CodeUnit.space :: (tail.text ++ rest)) := by
  simp [text]

end LetTail

namespace Expr

/-! ### The first token -/

/-- The kind and the units of the token that an expression starts with. -/
def firstLexeme : Expr → TokenKind × Text
  | .integer w => (.integer, w)
  | .name w => (.identifier, w)
  | .operation .. | .letForm _ => (.openParen, [CodeUnit.openParen])

@[simp] lemma firstLexeme_integer (w : Text) : (integer w).firstLexeme = (.integer, w) := rfl

@[simp] lemma firstLexeme_name (w : Text) : (name w).firstLexeme = (.identifier, w) := rfl

@[simp] lemma firstLexeme_operation (op : Operator) (left right : Expr) :
    (operation op left right).firstLexeme = (.openParen, [CodeUnit.openParen]) := rfl

@[simp] lemma firstLexeme_letForm (inside : LetTail) :
    (letForm inside).firstLexeme = (.openParen, [CodeUnit.openParen]) := rfl

/-- Only a name starts with an identifier, and then it is all of it. -/
lemma eq_name_of_firstLexeme {e : Expr} {w : Text} (h : e.firstLexeme = (.identifier, w)) :
    e = name w := by
  cases e with
  | name v =>
    simp only [firstLexeme_name, Prod.mk.injEq, true_and] at h
    rw [h]
  | integer v => simp at h
  | operation op left right => simp at h
  | letForm inside => simp at h

/-- What follows an expression does not change its first token. -/
lemma lexeme?_text_append {e : Expr} {rest : Text} (he : e.isWellFormed) (hrest : rest.isApart) :
    (e.text ++ rest).lexeme? = some e.firstLexeme := by
  match e, he with
  | .integer w, he =>
    have hw : TokenKind.integer.accepts w := by
      simp only [isWellFormed] at he
      exact he
    simp only [text, firstLexeme_integer]
    exact Text.lexeme?_append hw (TokenKind.endsBefore_of_isApart (by decide) hrest)
  | .name w, he =>
    have hw : TokenKind.identifier.accepts w := by
      simp only [isWellFormed] at he
      exact he
    simp only [text, firstLexeme_name]
    exact Text.lexeme?_append hw (TokenKind.endsBefore_of_isApart (by decide) hrest)
  | .operation op left right, _ =>
    rw [text_operation_append]
    rfl
  | .letForm inside, _ =>
    rw [text_letForm_append]
    rfl

lemma text_ne_nil {e : Expr} (he : e.isWellFormed) : e.text ≠ [] := by
  have hfirst : (e.text ++ []).lexeme? = some e.firstLexeme := lexeme?_text_append he rfl
  intro hnil
  rw [hnil] at hfirst
  cases e <;> cases hfirst

end Expr

/-! ### Unique reading -/

/-- Two names before units that belong to no name are the same if their texts are. -/
lemma Text.append_inj_of_isIdentifier {w w' rest rest' : Text} (hw : w.isIdentifier)
    (hw' : w'.isIdentifier) (hrest : rest.isApart) (hrest' : rest'.isApart)
    (h : w ++ rest = w' ++ rest') : w = w' ∧ rest = rest' := by
  have haccepts : TokenKind.identifier.accepts w := hw
  have haccepts' : TokenKind.identifier.accepts w' := hw'
  have hfirst := congrArg Text.lexeme? h
  rw [Text.lexeme?_append haccepts (TokenKind.endsBefore_of_isApart (by decide) hrest),
    Text.lexeme?_append haccepts' (TokenKind.endsBefore_of_isApart (by decide) hrest'),
    Option.some.injEq, Prod.mk.injEq] at hfirst
  obtain ⟨-, rfl⟩ := hfirst
  exact ⟨rfl, List.append_cancel_left h⟩

lemma Operator.name_injective : Function.Injective Operator.name := by
  intro op op' h
  have := congrArg Operator.ofName? h
  simpa using this

lemma Operator.name_ne_letName (op : Operator) : op.name ≠ letName := by
  cases op <;> decide

/-- A body that starts like a binding is the name alone, and a parenthesis follows it. -/
lemma LetTail.text_body_ne_text_bind {e value : Expr} {name : Text} {tail : LetTail}
    (he : (LetTail.body e).isWellFormed) (hbind : (LetTail.bind name value tail).isWellFormed)
    (rest rest' : Text) :
    (LetTail.body e).text ++ CodeUnit.closeParen :: rest ≠
      (LetTail.bind name value tail).text ++ CodeUnit.closeParen :: rest' := by
  intro h
  obtain ⟨⟨hname, -⟩, -⟩ : (name.isIdentifier ∧ value.isWellFormed) ∧ tail.isWellFormed := by
    simpa [LetTail.isWellFormed] using hbind
  have haccepts : TokenKind.identifier.accepts name := hname
  simp only [LetTail.isWellFormed] at he
  rw [LetTail.text_bind_append, LetTail.text] at h
  have hfirst := congrArg Text.lexeme? h
  rw [Expr.lexeme?_text_append he (by simp), Text.lexeme?_append haccepts
    (TokenKind.endsBefore_of_isApart (by decide) (by simp)), Option.some.injEq] at hfirst
  obtain rfl := Expr.eq_name_of_firstLexeme hfirst
  rw [Expr.text] at h
  exact absurd (List.cons.inj (List.append_cancel_left h)).1 (by decide)

mutual

/-- An expression and what follows it are read off their text in one way only. -/
theorem Expr.text_append_inj (e e' : Expr) (rest rest' : Text) (he : e.isWellFormed)
    (he' : e'.isWellFormed) (hrest : rest.isApart) (hrest' : rest'.isApart)
    (h : e.text ++ rest = e'.text ++ rest') : e = e' ∧ rest = rest' := by
  have hfirst : e.firstLexeme = e'.firstLexeme := by
    have := congrArg Text.lexeme? h
    rwa [Expr.lexeme?_text_append he hrest, Expr.lexeme?_text_append he' hrest',
      Option.some.injEq] at this
  match e, e' with
  | .integer w, .integer w' =>
    obtain rfl : w = w' := by simpa using hfirst
    exact ⟨rfl, List.append_cancel_left h⟩
  | .name w, .name w' =>
    obtain rfl : w = w' := by simpa using hfirst
    exact ⟨rfl, List.append_cancel_left h⟩
  | .operation op left right, .operation op' left' right' =>
    obtain ⟨hleft, hright⟩ : left.isWellFormed ∧ right.isWellFormed := by
      simpa [Expr.isWellFormed] using he
    obtain ⟨hleft', hright'⟩ : left'.isWellFormed ∧ right'.isWellFormed := by
      simpa [Expr.isWellFormed] using he'
    rw [Expr.text_operation_append, Expr.text_operation_append, List.cons.injEq] at h
    obtain ⟨hname, hoperands⟩ := Text.append_inj_of_isIdentifier op.isIdentifier_name
      op'.isIdentifier_name (by simp) (by simp) h.2
    obtain rfl := Operator.name_injective hname
    obtain ⟨rfl, hafter⟩ := left.text_append_inj left' _ _ hleft hleft' (by simp) (by simp)
      (List.cons.inj hoperands).2
    obtain ⟨rfl, hafter'⟩ := right.text_append_inj right' _ _ hright hright' (by simp) (by simp)
      (List.cons.inj hafter).2
    exact ⟨rfl, (List.cons.inj hafter').2⟩
  | .letForm inside, .letForm inside' =>
    rw [Expr.text_letForm_append, Expr.text_letForm_append, List.cons.injEq] at h
    have hinside := (List.cons.inj (List.append_cancel_left h.2)).2
    obtain ⟨rfl, hafter⟩ := inside.text_append_inj inside' rest rest'
      (by simpa only [Expr.isWellFormed] using he) (by simpa only [Expr.isWellFormed] using he')
      hinside
    exact ⟨rfl, hafter⟩
  | .operation op left right, .letForm inside' =>
    rw [Expr.text_operation_append, Expr.text_letForm_append, List.cons.injEq] at h
    obtain ⟨hname, -⟩ := Text.append_inj_of_isIdentifier op.isIdentifier_name
      isIdentifier_letName (by simp) (by simp) h.2
    exact absurd hname op.name_ne_letName
  | .letForm inside, .operation op' left' right' =>
    rw [Expr.text_operation_append, Expr.text_letForm_append, List.cons.injEq] at h
    obtain ⟨hname, -⟩ := Text.append_inj_of_isIdentifier isIdentifier_letName
      op'.isIdentifier_name (by simp) (by simp) h.2
    exact absurd hname.symm op'.name_ne_letName
  | .integer _, .name _ | .integer _, .operation .. | .integer _, .letForm _
  | .name _, .integer _ | .name _, .operation .. | .name _, .letForm _
  | .operation .., .integer _ | .operation .., .name _
  | .letForm _, .integer _ | .letForm _, .name _ => simp at hfirst

/-- The same for what stands inside a `let`, up to its closing parenthesis. -/
theorem LetTail.text_append_inj (inside inside' : LetTail) (rest rest' : Text)
    (hi : inside.isWellFormed) (hi' : inside'.isWellFormed)
    (h : inside.text ++ CodeUnit.closeParen :: rest =
      inside'.text ++ CodeUnit.closeParen :: rest') : inside = inside' ∧ rest = rest' := by
  match inside, inside' with
  | .body e, .body e' =>
    simp only [LetTail.isWellFormed, LetTail.text] at hi hi' h
    obtain ⟨rfl, hafter⟩ := e.text_append_inj e' _ _ hi hi' (Text.isApart_closeParen rest)
      (Text.isApart_closeParen rest') h
    exact ⟨rfl, (List.cons.inj hafter).2⟩
  | .bind name value tail, .bind name' value' tail' =>
    obtain ⟨⟨hname, hvalue⟩, htail⟩ :
        (name.isIdentifier ∧ value.isWellFormed) ∧ tail.isWellFormed := by
      simpa [LetTail.isWellFormed] using hi
    obtain ⟨⟨hname', hvalue'⟩, htail'⟩ :
        (name'.isIdentifier ∧ value'.isWellFormed) ∧ tail'.isWellFormed := by
      simpa [LetTail.isWellFormed] using hi'
    rw [LetTail.text_bind_append, LetTail.text_bind_append] at h
    obtain ⟨rfl, hafterName⟩ := Text.append_inj_of_isIdentifier hname hname' (by simp) (by simp) h
    obtain ⟨rfl, hafterValue⟩ := value.text_append_inj value' _ _ hvalue hvalue' (by simp)
      (by simp) (List.cons.inj hafterName).2
    obtain ⟨rfl, hafter⟩ := tail.text_append_inj tail' rest rest' htail htail'
      (List.cons.inj hafterValue).2
    exact ⟨rfl, hafter⟩
  | .body e, .bind name value tail =>
    exact absurd h (LetTail.text_body_ne_text_bind hi hi' rest rest')
  | .bind name value tail, .body e =>
    exact absurd h.symm (LetTail.text_body_ne_text_bind hi' hi rest' rest)

end

end Sprig
