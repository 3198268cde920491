import Mathlib.Data.List.Chain
import Sprig.Proofs.Format.Grammar
import Sprig.Proofs.Token.Factorization
import Sprig.Proofs.Token.Position

/-!
# The canonical form of an expression

Formatting turns a text of tokens into the one text that has the same lexemes and is in canonical
form. That form can be seen from the units: the only blanks are single spaces, and each of them
stands between two tokens of which the left one is no opening and the right one no closing
parenthesis. All other neighbours have a space between them.
-/

namespace Sprig

open Format

namespace Token

/-- The one token may stand right before the other, without a space. -/
def MayTouch (left right : Token) : Prop :=
  left.kind ≠ .space → right.kind ≠ .space → right.kind ≠ .endOfFile →
    left.kind = .openParen ∨ right.kind = .closeParen

/-- The one token may stand right before the other, also if one of them is a space. -/
structure Adjoins (left right : Token) : Prop where
  mayTouch : MayTouch left right
  after_space : left.kind = .space → isVisible right ∧ right.kind ≠ .closeParen
  before_space : right.kind = .space → left.kind ≠ .openParen

/-- All tokens of a text, the end of the input last, with spaces where the canonical form has
them. -/
structure AreCanonical (ts : List Token) : Prop where
  head?_kind : ∀ t ∈ ts.head?, t.kind ≠ .space
  isChain : ts.IsChain Adjoins

end Token

/-- A text in canonical form. -/
structure Text.IsCanonical (t : Text) : Prop where
  eq_space : ∀ u ∈ t, u.isBlank → u = CodeUnit.space
  head?_ne : t.head? ≠ some CodeUnit.space
  getLast?_ne : t.getLast? ≠ some CodeUnit.space
  single : ¬ [CodeUnit.space, CodeUnit.space] <:+: t
  after_openParen : ¬ [CodeUnit.openParen, CodeUnit.space] <:+: t
  before_closeParen : ¬ [CodeUnit.space, CodeUnit.closeParen] <:+: t
  separated : ∃ ts, t.tokens = .ok ts ∧ ts.IsChain Token.MayTouch

/-! ### From tokens to units -/

namespace Token

variable {t : Token} {ts : List Token} {last : Token} {before after : Text}

/-- A unit that is a token by itself is in no other one. -/
lemma kind_eq_of_mem {kind : TokenKind} {u : CodeUnit}
    (hlexeme : ∀ rest, Text.lexeme? (u :: rest) = some (kind, [u]))
    (halphanumeric : u.isAlphanumeric = false) (h : t.kind.accepts t.text) (hu : u ∈ t.text) :
    t.kind = kind := by
  obtain ⟨v, w, htext⟩ := List.exists_cons_of_ne_nil (List.ne_nil_of_mem hu)
  have hkind : t.kind ≠ .endOfFile := by
    intro hkind
    rw [text_eq_nil h hkind] at hu
    cases hu
  have hfind : Text.lexeme? (t.text ++ []) = some (t.kind, t.text) :=
    Text.lexeme?_append h (endsBefore_nil hkind)
  rw [htext] at hu h hfind
  rcases List.mem_cons.mp hu with rfl | hu
  · rw [List.append_nil, hlexeme] at hfind
    exact (congrArg Prod.fst (Option.some.inj hfind)).symm
  · rw [Text.isAlphanumeric_of_mem_tail h u hu] at halphanumeric
    cases halphanumeric

/-- A space in canonical form stands between two tokens that show, and at no parenthesis that opens
or closes there. -/
lemma AreCanonical.exists_neighbours (h : AreCanonical (ts ++ [last]))
    (hlast : last.kind = .endOfFile) (hread : AreRead ts [])
    (htexts : texts ts = before ++ CodeUnit.space :: after) :
    ∃ vs v w ws, before = texts vs ++ v.text ∧ after = w.text ++ texts ws ∧ IsShown v ∧ IsShown w ∧
      v.kind ≠ .openParen ∧ w.kind ≠ .closeParen := by
  obtain ⟨us, space, ws, rfl, hspace, rfl, rfl⟩ := exists_append_of_texts_eq hread.accepts htexts
  rw [List.append_assoc, List.cons_append] at h
  obtain ⟨vs, v, rfl⟩ : ∃ vs v, us = vs ++ [v] := by
    rcases us.eq_nil_or_concat' with rfl | hus
    · exact absurd hspace (h.head?_kind space rfl)
    · exact hus
  have hchain := h.isChain
  rw [List.append_assoc, List.singleton_append, List.isChain_append_cons_cons] at hchain
  obtain ⟨-, hbefore, hchain⟩ := hchain
  cases ws with
  | nil =>
    have hafter : Adjoins space last := (List.isChain_cons_cons.mp hchain).1
    obtain ⟨hvisible, -⟩ := hafter.after_space hspace
    exact absurd hlast (isVisible_iff.mp hvisible).2
  | cons w ws =>
    have hafter : Adjoins space w := (List.isChain_cons_cons.mp hchain).1
    obtain ⟨hvisible, hclose⟩ := hafter.after_space hspace
    have hv : isVisible v := by
      refine isVisible_iff.mpr ⟨?_, hread.kind_ne v (by simp)⟩
      intro hkind
      exact (isVisible_iff.mp (hbefore.after_space hkind).1).1 hspace
    exact ⟨vs, v, w, ws, by simp, by simp, ⟨hread.accepts v (by simp), hv⟩,
      ⟨hread.accepts w (by simp), hvisible⟩, hbefore.before_space hspace, hclose⟩

end Token

namespace Text

variable {t v w before after : Text} {ts : List Token} {u : CodeUnit}

lemma IsSolid.mem_of_eq_cons (hw : w.IsSolid) {y : Text} (h : u :: after = w ++ y) : u ∈ w := by
  obtain ⟨u', w, rfl⟩ := List.exists_cons_of_ne_nil hw.1
  simp [(List.cons.inj h).1]

lemma IsSolid.mem_of_eq_append (hv : v.IsSolid) {x : Text} (h : before ++ [u] = x ++ v) :
    u ∈ v := by
  have hlast := congrArg List.getLast? h
  rw [List.getLast?_append_of_ne_nil _ hv.1, List.getLast?_concat] at hlast
  exact List.mem_of_getLast? hlast.symm

/-- What stands before and after a space are units of tokens that show. -/
lemma exists_solid_of_eq_append (htokens : t.tokens = .ok ts) (h : Token.AreCanonical ts)
    (before after : Text) (ht : t = before ++ CodeUnit.space :: after) :
    ∃ x v w y : Text, before = x ++ v ∧ after = w ++ y ∧ v.IsSolid ∧ w.IsSolid ∧
      CodeUnit.openParen ∉ v ∧ CodeUnit.closeParen ∉ w := by
  obtain ⟨us, hread, rfl, -, rfl⟩ := tokens_eq_ok_iff_areRead.mp htokens
  obtain ⟨vs, v, w, ws, hbefore, hafter, hv, hw, hopen, hclose⟩ := h.exists_neighbours rfl hread ht
  refine ⟨_, _, _, _, hbefore, hafter, hv.isSolid, hw.isSolid, ?_, ?_⟩
  · intro hmem
    exact hopen (Token.kind_eq_of_mem (fun _ => rfl) rfl hv.accepts hmem)
  · intro hmem
    exact hclose (Token.kind_eq_of_mem (fun _ => rfl) rfl hw.accepts hmem)

/-- No token has another blank than the space. -/
lemma eq_space_of_tokens (htokens : t.tokens = .ok ts) (hu : u ∈ t) (hblank : u.isBlank) :
    u = CodeUnit.space := by
  obtain ⟨us, hread, rfl, -, -⟩ := tokens_eq_ok_iff_areRead.mp htokens
  obtain ⟨v, hv, huv⟩ := List.mem_flatMap.mp hu
  rcases Token.mem_text (hread.accepts v hv) huv with ⟨-, rfl⟩ | rfl | rfl | rfl | hu
  · rfl
  · cases hblank
  · cases hblank
  · cases hblank
  · rw [CodeUnit.isBlank_of_isAlphanumeric hu] at hblank
    cases hblank

/-- Tokens in canonical form make a text in canonical form. -/
theorem isCanonical_of_tokens (htokens : t.tokens = .ok ts) (h : Token.AreCanonical ts) :
    t.IsCanonical where
  eq_space := fun u hu hblank => eq_space_of_tokens htokens hu hblank
  head?_ne := by
    intro hhead
    obtain ⟨after, ht⟩ := List.head?_eq_some_iff.mp hhead
    obtain ⟨x, v, w, y, hbefore, -, hv, -⟩ := exists_solid_of_eq_append htokens h [] after ht
    exact hv.1 (List.append_eq_nil_iff.mp hbefore.symm).2
  getLast?_ne := by
    intro hlast
    obtain ⟨before, ht⟩ := List.getLast?_eq_some_iff.mp hlast
    obtain ⟨x, v, w, y, -, hafter, -, hw, -⟩ := exists_solid_of_eq_append htokens h before [] ht
    exact hw.1 (List.append_eq_nil_iff.mp hafter.symm).1
  single := by
    rintro ⟨before, after, ht⟩
    rw [List.append_assoc] at ht
    obtain ⟨x, v, w, y, -, hafter, -, hw, -⟩ := exists_solid_of_eq_append htokens h _ _ ht.symm
    exact absurd (hw.2 _ (hw.mem_of_eq_cons hafter)) (by decide)
  after_openParen := by
    rintro ⟨before, after, ht⟩
    rw [List.append_cons, List.append_assoc] at ht
    obtain ⟨x, v, w, y, hbefore, -, hv, -, hopen, -⟩ :=
      exists_solid_of_eq_append htokens h _ _ ht.symm
    exact hopen (hv.mem_of_eq_append hbefore)
  before_closeParen := by
    rintro ⟨before, after, ht⟩
    rw [List.append_assoc] at ht
    obtain ⟨x, v, w, y, -, hafter, -, hw, -, hclose⟩ :=
      exists_solid_of_eq_append htokens h _ _ ht.symm
    exact hclose (hw.mem_of_eq_cons hafter)
  separated := ⟨ts, htokens, h.isChain.imp fun _ _ hadjoins => hadjoins.mayTouch⟩

end Text

/-! ### The tokens that formatting lays out -/

namespace Format

variable {ts : List Token} {last t : Token} {source source' o o' : Text}

lemma spaceBetween_iff {left right : Token} :
    spaceBetween left right ↔ left.kind ≠ .openParen ∧ right.kind ≠ .closeParen := by
  simp [spaceBetween]

/-- One more token after others. -/
lemma isChain_concat (hts : (ts ++ [last]).IsChain Token.Adjoins) (h : Token.Adjoins last t) :
    (ts ++ [last] ++ [t]).IsChain Token.Adjoins := by
  rw [List.isChain_append]
  refine ⟨hts, List.isChain_singleton t, ?_⟩
  simpa using h

lemma Laid.isChain (h : Laid ts last) : ts.IsChain Token.Adjoins := by
  induction h with
  | single => exact List.isChain_singleton _
  | @tight ts last t h ht hspace ih =>
    obtain ⟨init, rfl⟩ := h.exists_append
    refine isChain_concat ih ⟨fun _ _ _ => ?_, fun hkind => ?_, fun hkind => ?_⟩
    · rw [← Bool.not_eq_true, spaceBetween_iff] at hspace
      tauto
    · exact absurd hkind h.isShown.kind_ne_space
    · exact absurd hkind ht.kind_ne_space
  | @spaced ts last space t h hkind _ ht hspace ih =>
    obtain ⟨init, rfl⟩ := h.exists_append
    obtain ⟨hopen, hclose⟩ := spaceBetween_iff.mp hspace
    have hbefore : Token.Adjoins last space := by
      refine ⟨fun _ hne => absurd hkind hne, fun hlast => ?_, fun _ => hopen⟩
      exact absurd hlast h.isShown.kind_ne_space
    have hafter : Token.Adjoins space t := by
      refine ⟨fun hne => absurd hkind hne, fun _ => ⟨ht.isVisible, hclose⟩, fun ht' => ?_⟩
      exact absurd ht' ht.kind_ne_space
    exact isChain_concat (isChain_concat ih hbefore) hafter

/-- Tokens that are laid out are in canonical form. -/
lemma Laid.areCanonical (h : Laid ts last) (p : Nat) :
    Token.AreCanonical (ts ++ [⟨.endOfFile, [], p⟩]) where
  head?_kind := by
    obtain ⟨t, tail, rfl, ht⟩ := h.exists_cons
    simpa using ht.kind_ne_space
  isChain := by
    have hchain := h.isChain
    obtain ⟨init, rfl⟩ := h.exists_append
    refine isChain_concat hchain ⟨fun _ _ hne => absurd rfl hne, fun hkind => ?_, by simp⟩
    exact absurd hkind h.isShown.kind_ne_space

/-- Formatting keeps the lexemes and puts spaces where the canonical form has them. -/
lemma areCanonical_of_expression (h : expression source = .ok o) :
    (∃ ts, o.tokens = .ok ts ∧ Token.AreCanonical ts) ∧
      o.lexemes = source.collapse.trim.lexemes ∧ expression o = .ok o := by
  obtain ⟨tokens, htokens, rfl⟩ := expression_eq_ok_iff.mp h
  have hall := isShown_of_tokens htokens
  have hlexemes : source.collapse.trim.lexemes =
      .ok ((tokens.filter isVisible).map Token.lexeme ++ [(.endOfFile, [])]) := by
    obtain ⟨us, hread, htexts, -, rfl⟩ := Text.tokens_eq_ok_iff_areRead.mp htokens
    rw [← htexts, Text.lexemes_texts hread]
    simp [isVisible]
  rw [hlexemes]
  by_cases hshown : tokens.filter isVisible = []
  · rw [hshown]
    refine ⟨⟨_, rfl, ?_, List.isChain_singleton _⟩, rfl, rfl⟩
    simp [layout]
  · obtain ⟨ts, last, hlaid, hfilter, hread⟩ := exists_laid hshown hall
    obtain ⟨last', hplaced, -⟩ := hlaid.placed 0
    rw [← hfilter, hlaid.layout_filter, Text.lexemes_texts hread]
    exact ⟨⟨_, Text.tokens_of_areRead hread rfl, hplaced.areCanonical _⟩, rfl,
      hlaid.expression_texts hread⟩

/-- What formatting makes of a text is a canonical form of its lexemes: it has the same ones, a
single space between any two of them that are not kept together by a parenthesis and no other
blanks, it stays as it is when it is formatted, and another text becomes the same if and only if it
has the same lexemes. -/
theorem expression_isCanonical (h : expression source = .ok o) :
    o.lexemes = source.collapse.trim.lexemes ∧ o.IsCanonical ∧ expression o = .ok o ∧
      ∀ source' o' : Text, expression source' = .ok o' →
        (o = o' ↔ source.collapse.trim.lexemes = source'.collapse.trim.lexemes) := by
  obtain ⟨⟨ts, htokens, hts⟩, hlexemes, hexpression⟩ := areCanonical_of_expression h
  refine ⟨hlexemes, Text.isCanonical_of_tokens htokens hts, hexpression, ?_⟩
  intro source' o' h'
  obtain ⟨-, hlexemes', -⟩ := areCanonical_of_expression h'
  constructor
  · rintro rfl
    rw [← hlexemes, ← hlexemes']
  · intro hsame
    have hexpression' := expression_congr hsame
    rw [h, h'] at hexpression'
    exact Except.ok.inj hexpression'

/-- Tokens that stood side by side are separated, unless a parenthesis keeps them together. -/
theorem expression_isCanonical_adjacent :
    expression ")( 12ab\t-3 " = .ok ") (12 ab -3" ∧ expression ") (12ab-3" = .ok ") (12 ab -3" ∧
    Text.lexemes ") (12 ab -3" = Text.lexemes (Text.trim (Text.collapse ")( 12ab\t-3 ")) ∧
    Text.IsCanonical ") (12 ab -3" ∧ expression ") (12 ab -3" = .ok ") (12 ab -3" ∧
    Text.lexemes (Text.trim (Text.collapse ")( 12ab\t-3 ")) =
      Text.lexemes (Text.trim (Text.collapse ") (12ab-3")) := by
  have h : expression ")( 12ab\t-3 " = .ok ") (12 ab -3" := by decide +kernel
  have h' : expression ") (12ab-3" = .ok ") (12 ab -3" := by decide +kernel
  obtain ⟨hlexemes, hcanonical, hexpression, hsame⟩ := expression_isCanonical h
  exact ⟨h, h', hlexemes, hcanonical, hexpression, (hsame _ _ h').mp rfl⟩

end Format

end Sprig
