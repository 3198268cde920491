import Sprig.Proofs.Evaluation.Soundness
import Sprig.Proofs.Format.Canonical

/-!
# Formatting reaches the grammar

The grammar puts a space exactly where the layout does, so the tokens of an expression are laid out
as its text. Blanks between tokens are read as spaces, and spaces do not show in the layout. So all
texts with the same tokens are formatted alike, and those with the tokens of an expression become
its text, the only one among them that can have a value.
-/

namespace Sprig

/-! ### Lexemes of a text -/

/-- The kind and the units of a token, wherever it stands. -/
def Token.lexeme (t : Token) : TokenKind × Text := (t.kind, t.text)

/-- What the tokens of a text are but for its spaces, if it has tokens only. -/
def Text.lexemes (t : Text) : Except SyntaxError (List (TokenKind × Text)) :=
  t.tokens.map fun ts => (ts.map Token.lexeme).filter fun w => w.1 ≠ .space

namespace Token

lemma map_lexeme_placed (p : Nat) (ts : List Token) :
    (placed p ts).map lexeme = ts.map lexeme := by
  induction ts generalizing p with
  | nil => rfl
  | cons t ts ih =>
    rw [placed, List.map_cons, List.map_cons, ih]
    rfl

lemma map_lexeme_filter_isVisible (ts : List Token) :
    (ts.filter Format.isVisible).map lexeme =
      ((ts.map lexeme).filter fun w => w.1 ≠ .space).filter fun w => w.1 ≠ .endOfFile := by
  rw [List.filter_filter, List.filter_map]
  congr 1
  refine List.filter_congr fun ⟨kind, _, _⟩ _ => ?_
  cases kind <;> rfl

end Token

lemma Text.lexemes_texts {ts : List Token} (h : Token.AreRead ts []) :
    (Token.texts ts).lexemes =
      .ok ((ts.filter Format.isVisible).map Token.lexeme ++ [(.endOfFile, [])]) := by
  have hend : ((ts.map Token.lexeme).filter fun w => w.1 ≠ .space).filter
      (fun w => w.1 ≠ .endOfFile) = (ts.map Token.lexeme).filter fun w => w.1 ≠ .space := by
    refine List.filter_eq_self.mpr fun w hw => ?_
    obtain ⟨t, ht, rfl⟩ := List.mem_map.mp (List.mem_filter.mp hw).1
    exact decide_eq_true (h.kind_ne t ht)
  have hscan := Lexer.scan_texts 0 h
  rw [List.append_nil, Lexer.scan_nil] at hscan
  rw [Token.map_lexeme_filter_isVisible, hend, lexemes, Text.tokens_eq_scan, Lexer.ofText, hscan]
  simp [Scan.toExcept, Scan.after, Except.map, Token.map_lexeme_placed, Token.lexeme]

/-! ### Parentheses -/

namespace Token

/-- The token that a form starts with, no matter where it stands. -/
def openParen : Token := ⟨.openParen, [CodeUnit.openParen], 0⟩

/-- The token that a form ends with, no matter where it stands. -/
def closeParen : Token := ⟨.closeParen, [CodeUnit.closeParen], 0⟩

@[simp] lemma kind_openParen : openParen.kind = .openParen := rfl

@[simp] lemma text_openParen : openParen.text = [CodeUnit.openParen] := rfl

@[simp] lemma kind_closeParen : closeParen.kind = .closeParen := rfl

@[simp] lemma text_closeParen : closeParen.text = [CodeUnit.closeParen] := rfl

end Token

/-! ### Layouts of lexemes -/

namespace Format

variable {ts us : List Token} {previous previous' t : Token} {source source' : Text}

lemma layoutAfter_eq_of_map_lexeme (hkind : previous.kind = previous'.kind)
    (h : ts.map Token.lexeme = us.map Token.lexeme) :
    layoutAfter previous ts = layoutAfter previous' us := by
  induction ts generalizing us previous previous' with
  | nil =>
    obtain rfl : us = [] := by simpa using h
    rfl
  | cons t ts ih =>
    obtain ⟨u, us, rfl, hu, hus⟩ := List.map_eq_cons_iff.mp h.symm
    obtain ⟨hkind', htext⟩ : u.kind = t.kind ∧ u.text = t.text := by
      simpa [Token.lexeme] using hu
    rw [layoutAfter, layoutAfter, ih hkind'.symm hus.symm, htext]
    simp [spaceBetween, hkind, hkind']

/-- Nothing goes between an opening parenthesis and what follows. -/
lemma layout_eq_layoutAfter (ts : List Token) : layout ts = layoutAfter .openParen ts := by
  cases ts with
  | nil => rfl
  | cons t ts => simp [layout, layoutAfter, spaceBetween]

lemma layout_eq_of_map_lexeme (h : ts.map Token.lexeme = us.map Token.lexeme) :
    layout ts = layout us := by
  rw [layout_eq_layoutAfter, layout_eq_layoutAfter, layoutAfter_eq_of_map_lexeme rfl h]

/-- Texts that become the same lexemes are formatted alike. -/
theorem expression_congr (h : source.collapse.trim.lexemes = source'.collapse.trim.lexemes) :
    expression source = expression source' := by
  rw [Text.lexemes, Text.lexemes] at h
  rw [expression, expression]
  cases htokens : source.collapse.trim.tokens with
  | error c => cases htokens' : source'.collapse.trim.tokens <;> simp_all [Except.map]
  | ok ts =>
    cases htokens' : source'.collapse.trim.tokens with
    | error c => simp [htokens, htokens', Except.map] at h
    | ok us =>
      simp only [htokens, htokens', Except.map, Except.ok.injEq] at h ⊢
      apply layout_eq_of_map_lexeme
      rw [Token.map_lexeme_filter_isVisible, Token.map_lexeme_filter_isVisible, h]

/-- What stands between a token and an expression after it. -/
def spaceAfter (previous : Token) : Text :=
  if previous.kind = .openParen then [] else [CodeUnit.space]

lemma layoutAfter_cons (hkind : t.kind ≠ .closeParen) :
    layoutAfter previous (t :: ts) = spaceAfter previous ++ (t.text ++ layoutAfter t ts) := by
  by_cases hopen : previous.kind = .openParen
  · simp [layoutAfter, spaceBetween, spaceAfter, hopen]
  · simp [layoutAfter, spaceBetween, spaceAfter, hopen, hkind]

lemma layoutAfter_cons_closeParen (hkind : t.kind = .closeParen) :
    layoutAfter previous (t :: ts) = t.text ++ layoutAfter t ts := by
  simp [layoutAfter, spaceBetween, hkind]

lemma layoutAfter_of_kind_ne (h : previous.kind ≠ .openParen) (h' : previous'.kind ≠ .openParen)
    (ts : List Token) : layoutAfter previous ts = layoutAfter previous' ts := by
  cases ts with
  | nil => rfl
  | cons t ts => simp [layoutAfter, spaceBetween, h, h']

end Format

/-! ### The tokens of an expression -/

mutual

/-- The tokens of an expression but for its spaces, no matter where they stand. -/
def Expr.tokens : Expr → List Token
  | .integer lexeme => [⟨.integer, lexeme, 0⟩]
  | .name name => [⟨.identifier, name, 0⟩]
  | .operation op left right =>
    .openParen :: ⟨.identifier, op.name, 0⟩ :: (left.tokens ++ (right.tokens ++ [.closeParen]))
  | .letForm inside =>
    .openParen :: ⟨.identifier, letName, 0⟩ :: (inside.tokens ++ [.closeParen])

/-- The tokens inside a `let`. -/
def LetTail.tokens : LetTail → List Token
  | .body e => e.tokens
  | .bind name value rest => ⟨.identifier, name, 0⟩ :: (value.tokens ++ rest.tokens)

end

section Layout

open Format

mutual

/-- The layout of an expression is its text, after a space if one has to be there. -/
theorem Expr.layoutAfter_tokens {previous last : Token} (e : Expr)
    (hlast : last.kind ≠ .openParen) (us : List Token) : layoutAfter previous (e.tokens ++ us) =
      spaceAfter previous ++ (e.text ++ layoutAfter last us) := by
  -- An expression ends in no opening parenthesis, and which token it ends in does not count.
  have hclose : Token.closeParen.kind ≠ .openParen := by simp
  match e with
  | .integer w =>
    rw [Expr.tokens, List.singleton_append, layoutAfter_cons (by simp), Expr.text,
      layoutAfter_of_kind_ne (by simp) hlast]
  | .name w =>
    rw [Expr.tokens, List.singleton_append, layoutAfter_cons (by simp), Expr.text,
      layoutAfter_of_kind_ne (by simp) hlast]
  | .operation op left right =>
    simp only [Expr.tokens, List.cons_append, List.append_assoc, List.nil_append]
    rw [layoutAfter_cons (by simp), layoutAfter_cons (by simp), left.layoutAfter_tokens hclose,
      right.layoutAfter_tokens hclose, layoutAfter_cons_closeParen rfl,
      layoutAfter_of_kind_ne hclose hlast, Expr.text_operation_append]
    simp [spaceAfter]
  | .letForm inside =>
    simp only [Expr.tokens, List.cons_append, List.append_assoc, List.nil_append]
    rw [layoutAfter_cons (by simp), layoutAfter_cons (by simp), inside.layoutAfter_tokens hclose,
      layoutAfter_cons_closeParen rfl, layoutAfter_of_kind_ne hclose hlast,
      Expr.text_letForm_append]
    simp [spaceAfter]

/-- The same for what stands inside a `let`. -/
theorem LetTail.layoutAfter_tokens {previous last : Token} (inside : LetTail)
    (hlast : last.kind ≠ .openParen) (us : List Token) :
    layoutAfter previous (inside.tokens ++ us) =
      spaceAfter previous ++ (inside.text ++ layoutAfter last us) := by
  have hclose : Token.closeParen.kind ≠ .openParen := by simp
  match inside with
  | .body e =>
    rw [LetTail.tokens, LetTail.text]
    exact e.layoutAfter_tokens hlast us
  | .bind name value rest =>
    rw [LetTail.tokens, List.cons_append, List.append_assoc, layoutAfter_cons (by simp),
      value.layoutAfter_tokens hclose, rest.layoutAfter_tokens hlast, LetTail.text_bind_append]
    simp [spaceAfter]

end

/-- The layout of the tokens of an expression is its text. -/
theorem Expr.layout_tokens (e : Expr) : layout e.tokens = e.text := by
  have hclose : Token.closeParen.kind ≠ .openParen := by simp
  calc layout e.tokens = layoutAfter .openParen (e.tokens ++ []) := by
        rw [List.append_nil, layout_eq_layoutAfter]
    _ = spaceAfter .openParen ++ (e.text ++ layoutAfter .closeParen []) :=
        e.layoutAfter_tokens hclose []
    _ = e.text := by simp [spaceAfter, layoutAfter]

mutual

lemma Expr.isShown_of_mem_tokens (e : Expr) (he : e.isWellFormed) : ∀ t ∈ e.tokens, IsShown t := by
  match e with
  | .integer w =>
    simp only [Expr.isWellFormed] at he
    simpa [Expr.tokens] using ⟨he, rfl⟩
  | .name w =>
    simp only [Expr.isWellFormed] at he
    simpa [Expr.tokens] using ⟨he, rfl⟩
  | .operation op left right =>
    obtain ⟨hleft, hright⟩ : left.isWellFormed ∧ right.isWellFormed := by
      simpa [Expr.isWellFormed] using he
    simp only [Expr.tokens, List.mem_cons, List.mem_append, List.not_mem_nil, or_false]
    rintro t (rfl | rfl | ht | ht | rfl)
    · exact ⟨rfl, rfl⟩
    · exact ⟨op.isIdentifier_name, rfl⟩
    · exact left.isShown_of_mem_tokens hleft t ht
    · exact right.isShown_of_mem_tokens hright t ht
    · exact ⟨rfl, rfl⟩
  | .letForm inside =>
    simp only [Expr.isWellFormed] at he
    simp only [Expr.tokens, List.mem_cons, List.mem_append, List.not_mem_nil, or_false]
    rintro t (rfl | rfl | ht | rfl)
    · exact ⟨rfl, rfl⟩
    · exact ⟨isIdentifier_letName, rfl⟩
    · exact inside.isShown_of_mem_tokens he t ht
    · exact ⟨rfl, rfl⟩

lemma LetTail.isShown_of_mem_tokens (inside : LetTail) (hi : inside.isWellFormed) :
    ∀ t ∈ inside.tokens, IsShown t := by
  match inside with
  | .body e =>
    simp only [LetTail.isWellFormed] at hi
    exact e.isShown_of_mem_tokens hi
  | .bind name value rest =>
    obtain ⟨⟨hname, hvalue⟩, hrest⟩ :
        (name.isIdentifier ∧ value.isWellFormed) ∧ rest.isWellFormed := by
      simpa [LetTail.isWellFormed] using hi
    simp only [LetTail.tokens, List.mem_cons, List.mem_append]
    rintro t (rfl | ht | ht)
    · exact ⟨hname, rfl⟩
    · exact value.isShown_of_mem_tokens hvalue t ht
    · exact rest.isShown_of_mem_tokens hrest t ht

end

lemma Expr.tokens_ne_nil (e : Expr) : e.tokens ≠ [] := by
  cases e <;> simp [Expr.tokens]

/-- The text of an expression is made of its tokens, in their layout. -/
lemma Expr.exists_laid {e : Expr} (he : e.isWellFormed) :
    ∃ ts last, Laid ts last ∧ Token.AreRead ts [] ∧ ts.filter isVisible = e.tokens ∧
      Token.texts ts = e.text := by
  obtain ⟨ts, last, hlaid, hfilter, hread⟩ :=
    Format.exists_laid e.tokens_ne_nil (e.isShown_of_mem_tokens he)
  exact ⟨ts, last, hlaid, hread, hfilter, by rw [← hlaid.layout_filter, hfilter, e.layout_tokens]⟩

/-- The lexemes of the text of an expression are those of its tokens. -/
lemma Expr.lexemes_text {e : Expr} (he : e.isWellFormed) :
    e.text.lexemes = .ok (e.tokens.map Token.lexeme ++ [(.endOfFile, [])]) := by
  obtain ⟨ts, last, -, hread, hfilter, htexts⟩ := e.exists_laid he
  rw [← htexts, Text.lexemes_texts hread, hfilter]

/-- Neither collapsing nor trimming changes the text of an expression, but for a space before. -/
lemma Expr.trim_collapse_text {e : Expr} (he : e.isWellFormed) {lead : Text}
    (hlead : lead = [] ∨ lead = [CodeUnit.space]) : (lead ++ e.text).collapse.trim = e.text := by
  obtain ⟨ts, last, hlaid, -, -, htexts⟩ := e.exists_laid he
  simpa [htexts, Text.trimEnd] using hlaid.trim_collapse_texts hlead []

lemma Expr.expression_text {e : Expr} (he : e.isWellFormed) : expression e.text = .ok e.text := by
  obtain ⟨ts, last, hlaid, hread, -, htexts⟩ := e.exists_laid he
  rw [← htexts]
  exact hlaid.expression_texts hread

end Layout

/-! ### Blanks between tokens -/

/-- A text of tokens with any blanks before and after each of them, or none where a token ends
before the next one anyway. -/
inductive Token.AreSpread : List Token → Text → Prop
  | nil {gap : Text} (hgap : gap.isBlank) : AreSpread [] gap
  | cons {gap rest : Text} {t : Token} {ts : List Token} (hgap : gap.isBlank)
    (hends : t.kind.endsBefore rest) (h : AreSpread ts rest) :
    AreSpread (t :: ts) (gap ++ (t.text ++ rest))

namespace Token.AreSpread

open Format

variable {t : Token} {ts : List Token} {source : Text}

/-- A token that ends before a text is read before it when it is collapsed and trimmed. -/
lemma areRead_cons {us : List Token} {rest : Text} (ht : IsShown t)
    (hends : t.kind.endsBefore rest) (hread : AreRead us [])
    (htexts : texts us = rest.collapse.trimEnd) : AreRead (t :: us) [] := by
  refine ⟨ht.kind_ne_endOfFile, ht.accepts, ?_, hread⟩
  rw [htexts, List.append_nil]
  exact endsBefore_trimEnd_collapse hends

/-- Blanks before tokens are read as spaces. -/
lemma exists_tokens (h : AreSpread ts source) (hts : ∀ t ∈ ts, IsShown t) :
    ∃ us, AreRead us [] ∧ us.filter isVisible = ts ∧ texts us = source.collapse.trimEnd := by
  induction h with
  | nil hgap =>
    exact ⟨[], trivial, rfl, (Text.trimEnd_eq_nil_of_isBlank (Text.isBlank_collapse hgap)).symm⟩
  | @cons gap rest t ts hgap hends _ ih =>
    have ht : IsShown t := hts t (by simp)
    obtain ⟨us, hread, hfilter, htexts⟩ := ih fun u hu => hts u (by simp [hu])
    have hread' : AreRead (t :: us) [] := areRead_cons ht hends hread htexts
    obtain ⟨lead, hlead, hcollapse⟩ := Text.exists_trimEnd_collapse_append hgap ht.isSolid rest
    rw [hcollapse, ← htexts]
    rcases hlead with rfl | rfl
    · exact ⟨t :: us, hread', by simp [ht.isVisible, hfilter], by simp⟩
    · have hhidden : isVisible ⟨.space, [CodeUnit.space], 0⟩ = false := rfl
      exact ⟨⟨.space, [CodeUnit.space], 0⟩ :: t :: us, ⟨by simp, rfl, rfl, hread'⟩,
        by simp [ht.isVisible, hhidden, hfilter], by simp⟩

lemma lexemes_trim_collapse (h : AreSpread ts source) (hne : ts ≠ [])
    (hts : ∀ t ∈ ts, IsShown t) :
    source.collapse.trim.lexemes = .ok (ts.map Token.lexeme ++ [(.endOfFile, [])]) := by
  cases h with
  | nil => exact absurd rfl hne
  | @cons gap rest t ts hgap hends hrest =>
    have ht : IsShown t := hts t (by simp)
    obtain ⟨us, hread, hfilter, htexts⟩ := hrest.exists_tokens fun u hu => hts u (by simp [hu])
    have hread' : AreRead (t :: us) [] := areRead_cons ht hends hread htexts
    rw [Text.trim_collapse_append hgap ht.isSolid, ← htexts, ← texts_cons,
      Text.lexemes_texts hread']
    simp [ht.isVisible, hfilter]

end Token.AreSpread

/-! ### Formatting -/

namespace Format

/-- All texts with the tokens of an expression are formatted to the text of that expression,
however their tokens are spread. No other one of them has a value, but for one with a space
before. -/
theorem expression_of_lexemes {e : Expr} (he : e.isWellFormed) :
    e.text.lexemes = .ok (e.tokens.map Token.lexeme ++ [(.endOfFile, [])]) ∧
    (∀ source : Text, source.collapse.trim.lexemes = e.text.lexemes →
      expression source = .ok e.text) ∧
    (∀ source, Token.AreSpread e.tokens source →
      source.collapse.trim.lexemes = e.text.lexemes ∧ expression source = .ok e.text) ∧
    ∀ (limit : Nat) (source : Text) (value : Int),
      source.collapse.trim.lexemes = e.text.lexemes → evaluate limit source = .ok value →
        source = e.text ∨ source = CodeUnit.space :: e.text := by
  have hformat {e : Expr} (he : e.isWellFormed) (source : Text)
      (h : source.collapse.trim.lexemes = e.text.lexemes) : expression source = .ok e.text := by
    have htrim : e.text.collapse.trim = e.text := e.trim_collapse_text he (Or.inl rfl)
    rw [← e.expression_text he]
    exact expression_congr (by rw [h, htrim])
  refine ⟨e.lexemes_text he, hformat he, ?_, ?_⟩
  · intro source h
    have hlexemes := h.lexemes_trim_collapse e.tokens_ne_nil (e.isShown_of_mem_tokens he)
    rw [← e.lexemes_text he] at hlexemes
    exact ⟨hlexemes, hformat he source hlexemes⟩
  · intro limit source value h hvalue
    obtain ⟨e', hfits, hsource⟩ := exists_fits_of_evaluate hvalue
    have htrim : source.collapse.trim = e'.text := by
      rcases hsource with rfl | rfl
      · exact e'.trim_collapse_text hfits.isWellFormed (Or.inl rfl)
      · exact e'.trim_collapse_text hfits.isWellFormed (Or.inr rfl)
    have htext : e'.text = e.text := by
      have hexpression := hformat hfits.isWellFormed source (by rw [htrim])
      exact Except.ok.inj (hexpression.symm.trans (hformat he source h))
    rwa [htext] at hsource

/-- A minus sign right after an integer, a tab and a line feed between tokens. -/
theorem expression_of_lexemes_add :
    (Expr.operation .add (.integer "2") (.integer "-4")).text = "(add 2 -4)" ∧
    Text.lexemes (Text.trim (Text.collapse " (add\t2-4\n)")) = Text.lexemes "(add 2 -4)" ∧
    expression " (add\t2-4\n)" = .ok "(add 2 -4)" ∧
    Token.AreSpread (Expr.operation .add (.integer "2") (.integer "-4")).tokens "(add 2-4)" ∧
    expression "(add 2-4)" = .ok "(add 2 -4)" := by
  have htext : (Expr.operation .add (.integer "2") (.integer "-4")).text = "(add 2 -4)" := by
    decide +kernel
  have hlexemes : Text.lexemes (Text.trim (Text.collapse " (add\t2-4\n)")) =
      Text.lexemes "(add 2 -4)" := by decide +kernel
  have hspread : Token.AreSpread (Expr.operation .add (.integer "2") (.integer "-4")).tokens
      "(add 2-4)" := by
    refine @Token.AreSpread.cons [] "add 2-4)" _ _ rfl rfl ?_
    refine @Token.AreSpread.cons [] " 2-4)" _ _ rfl rfl ?_
    refine @Token.AreSpread.cons " " "-4)" _ _ rfl rfl ?_
    refine @Token.AreSpread.cons [] ")" _ _ rfl rfl ?_
    exact @Token.AreSpread.cons [] [] _ _ rfl rfl (.nil rfl)
  obtain ⟨-, hformat, hformat', -⟩ := expression_of_lexemes
    (show (Expr.operation .add (.integer "2") (.integer "-4")).isWellFormed by decide +kernel)
  have hexpression := hformat _ (hlexemes.trans (by rw [htext]))
  have hexpression' := (hformat' _ hspread).2
  rw [htext] at hexpression hexpression'
  exact ⟨htext, hlexemes, hexpression, hspread, hexpression'⟩

end Format

end Sprig
