import Sprig.Format.Basic
import Sprig.Proofs.Reader.Replay
import Sprig.Proofs.Text.Blank

/-!
# Text in its layout

Tokens that stand in the layout of the grammar are left as they are by formatting, whatever the
tokens after them are: neither collapsing nor trimming changes their units, and laying out the
tokens that show puts the same spaces between them.
-/

namespace Sprig.Format

/-! ### Results -/

lemma expression_eq_ok_iff {source t : Text} : expression source = .ok t ↔
    ∃ ts, source.collapse.trim.tokens = .ok ts ∧ layout (ts.filter isVisible) = t := by
  rw [expression]
  cases source.collapse.trim.tokens <;> simp [Except.map]

lemma expression_eq_error_iff {source : Text} {c : SyntaxError} :
    expression source = .error c ↔ source.collapse.trim.tokens = .error c := by
  rw [expression]
  cases source.collapse.trim.tokens <;> simp [Except.map]

/-! ### Tokens that show -/

/-- A token that shows in the layout, made of the units of its kind. -/
structure IsShown (t : Token) : Prop where
  accepts : t.kind.accepts t.text
  isVisible : isVisible t

lemma isVisible_iff {t : Token} : isVisible t ↔ t.kind ≠ .space ∧ t.kind ≠ .endOfFile := by
  rw [isVisible, decide_eq_true_eq]

lemma IsShown.kind_ne_space {t : Token} (h : IsShown t) : t.kind ≠ .space :=
  (isVisible_iff.mp h.isVisible).1

lemma IsShown.kind_ne_endOfFile {t : Token} (h : IsShown t) : t.kind ≠ .endOfFile :=
  (isVisible_iff.mp h.isVisible).2

lemma IsShown.isSolid {t : Token} (h : IsShown t) : t.text.IsSolid := by
  refine ⟨Lexer.text_ne_nil_of_accepts h.kind_ne_endOfFile h.accepts, fun u hu => ?_⟩
  rcases Token.mem_text h.accepts hu with ⟨hkind, -⟩ | rfl | rfl | rfl | hu
  · exact absurd hkind h.kind_ne_space
  · decide
  · decide
  · decide
  · exact CodeUnit.isBlank_of_isAlphanumeric hu

lemma isShown_of_tokens {source : Text} {ts : List Token} (h : source.tokens = .ok ts) :
    ∀ t ∈ ts.filter isVisible, IsShown t := by
  rw [Text.tokens_eq_scan, Scan.toExcept_eq_ok_iff] at h
  obtain ⟨-, rfl⟩ := h
  intro t ht
  obtain ⟨hmem, hvisible⟩ := List.mem_filter.mp ht
  exact ⟨Lexer.accepts_of_mem_scan _ t hmem, hvisible⟩

/-! ### Tokens in a layout -/

/-- Only the kind of the token before counts. -/
lemma layoutAfter_congr {previous previous' : Token} (h : previous'.kind = previous.kind)
    (ts : List Token) : layoutAfter previous' ts = layoutAfter previous ts := by
  cases ts with
  | nil => rfl
  | cons t ts => simp [layoutAfter, spaceBetween, h]

lemma exists_of_append_singleton {α : Type} {ts us vs : List α} {t u : α}
    (h : ts ++ [t] = us ++ u :: vs) (hne : t ≠ u) : ∃ ws, vs = ws ++ [t] ∧ ts = us ++ u :: ws := by
  rcases vs.eq_nil_or_concat' with rfl | ⟨ws, w, rfl⟩
  · obtain ⟨-, ht⟩ := List.append_inj' h rfl
    exact absurd (List.singleton_injective ht) hne
  · rw [← List.cons_append, ← List.append_assoc] at h
    obtain ⟨hts, ht⟩ := List.append_inj' h rfl
    obtain rfl := List.singleton_injective ht
    exact ⟨ws, rfl, hts⟩

/-- Tokens in the layout of the grammar, with the last of them. -/
inductive Laid : List Token → Token → Prop
  | single {t} (ht : IsShown t) : Laid [t] t
  | tight {ts last t} (h : Laid ts last) (ht : IsShown t) (hspace : spaceBetween last t = false) :
    Laid (ts ++ [t]) t
  | spaced {ts last space t} (h : Laid ts last) (hkind : space.kind = .space)
    (htext : space.text = [CodeUnit.space]) (ht : IsShown t) (hspace : spaceBetween last t) :
    Laid (ts ++ [space] ++ [t]) t

section Texts

variable {last : Token} {ts : List Token} {rest : Text}

namespace Laid

lemma isShown (h : Laid ts last) : IsShown last := by
  cases h with
  | single ht => exact ht
  | tight _ ht _ => exact ht
  | spaced _ _ _ ht _ => exact ht

lemma exists_append (h : Laid ts last) : ∃ init, ts = init ++ [last] := by
  cases h with
  | single => exact ⟨[], rfl⟩
  | tight => exact ⟨_, rfl⟩
  | spaced => exact ⟨_, rfl⟩

/-- The first token shows too. -/
lemma exists_cons (h : Laid ts last) : ∃ t tail, ts = t :: tail ∧ IsShown t := by
  induction h with
  | single ht => exact ⟨_, [], rfl, ht⟩
  | tight _ _ _ ih =>
    obtain ⟨t, tail, rfl, ht⟩ := ih
    exact ⟨t, _, rfl, ht⟩
  | spaced _ _ _ _ _ ih =>
    obtain ⟨t, tail, rfl, ht⟩ := ih
    exact ⟨t, _, List.append_assoc .., ht⟩

lemma placed (h : Laid ts last) (p : Nat) :
    ∃ last', Laid (Token.placed p ts) last' ∧ last'.kind = last.kind := by
  induction h generalizing p with
  | single ht => exact ⟨_, .single ⟨ht.accepts, ht.isVisible⟩, rfl⟩
  | @tight ts last t _ ht hspace ih =>
    obtain ⟨last', hlaid, hkind⟩ := ih p
    rw [Token.placed_append]
    exact ⟨_, .tight hlaid ⟨ht.accepts, ht.isVisible⟩ (by simpa [spaceBetween, hkind] using hspace),
      rfl⟩
  | @spaced ts last space t _ hkindSpace htext ht hspace ih =>
    obtain ⟨last', hlaid, hkind⟩ := ih p
    rw [Token.placed_append, Token.placed_append]
    exact ⟨_, .spaced hlaid hkindSpace htext ⟨ht.accepts, ht.isVisible⟩
      (by simpa [spaceBetween, hkind] using hspace), rfl⟩

/-- What stands before a space is laid out, and so is what stands after it. -/
lemma split {us vs : List Token} {space : Token} (h : Laid ts last)
    (hspace : space.kind = .space) (hts : ts = us ++ space :: vs) :
    (∃ last', Laid us last') ∧ Laid vs last := by
  have hshown {t : Token} (ht : IsShown t) : t ≠ space := by
    rintro rfl
    exact ht.kind_ne_space hspace
  induction h generalizing vs with
  | @single t ht =>
    have heq : [] ++ [t] = us ++ space :: vs := hts
    obtain ⟨vs, rfl, hnil⟩ := exists_of_append_singleton heq (hshown ht)
    simp at hnil
  | tight h ht hbetween ih =>
    obtain ⟨vs, rfl, heq⟩ := exists_of_append_singleton hts (hshown ht)
    obtain ⟨hus, hvs⟩ := ih heq
    exact ⟨hus, .tight hvs ht hbetween⟩
  | spaced h hkind htext ht hbetween ih =>
    obtain ⟨vs, rfl, heq⟩ := exists_of_append_singleton hts (hshown ht)
    -- The space before the last token may be the one that is looked at.
    rcases vs.eq_nil_or_concat' with rfl | ⟨vs, u, rfl⟩
    · obtain ⟨rfl, -⟩ := List.append_inj' heq rfl
      exact ⟨⟨_, h⟩, .single ht⟩
    · rw [← List.cons_append, ← List.append_assoc] at heq
      obtain ⟨hbefore, hu⟩ := List.append_inj' heq rfl
      obtain rfl := List.singleton_injective hu
      obtain ⟨hus, hvs⟩ := ih hbefore
      exact ⟨hus, .spaced hvs hkind htext ht hbetween⟩

/-- Laying out the tokens that show gives the units of all of them. -/
lemma layout_append (h : Laid ts last) (us : List Token) :
    layout (ts.filter isVisible ++ us) = Token.texts ts ++ layoutAfter last us := by
  induction h generalizing us with
  | single ht => simp [layout, ht.isVisible]
  | tight _ ht hspace ih => simp [ht.isVisible, ih, layoutAfter, hspace]
  | @spaced _ _ space _ _ hkind htext ht hspace ih =>
    have hhidden : Format.isVisible space = false := by simp [Format.isVisible, hkind]
    simp [ht.isVisible, hhidden, ih, layoutAfter, hspace, htext]

lemma layout_filter (h : Laid ts last) : layout (ts.filter Format.isVisible) = Token.texts ts := by
  simpa [layoutAfter] using h.layout_append []

/-! ### Blanks -/

lemma collapse_texts (h : Laid ts last) (rest : Text) :
    Text.collapse (Token.texts ts ++ rest) = Token.texts ts ++ rest.collapse := by
  induction h generalizing rest with
  | single ht => simpa using Text.collapse_append ht.isSolid.2 rest
  | tight _ ht _ ih => simp [ih, Text.collapse_append ht.isSolid.2]
  | spaced _ _ htext ht _ ih => simp [ih, htext, Text.collapse_space_append ht.isSolid]

/-- Collapsing and trimming change only what follows, and a space before. -/
lemma trim_collapse_texts (h : Laid ts last) {lead : Text}
    (hlead : lead = [] ∨ lead = [CodeUnit.space]) (rest : Text) :
    (lead ++ (Token.texts ts ++ rest)).collapse.trim =
      Token.texts ts ++ rest.collapse.trimEnd := by
  obtain ⟨init, hinit⟩ := h.exists_append
  obtain ⟨t, tail, hts, ht⟩ := h.exists_cons
  have hfirst (x : Text) : Text.trimStart (Token.texts ts ++ x) = Token.texts ts ++ x := by
    rw [hts, Token.texts_cons, List.append_assoc, Text.trimStart_append ht.isSolid]
  have hlast : Text.trimEnd (Token.texts ts ++ rest.collapse) =
      Token.texts ts ++ rest.collapse.trimEnd := by
    have hend := Text.trimEnd_append_of_isSolid h.isShown.isSolid rest.collapse
    rw [hinit, Token.texts_append, Token.texts_cons, Token.texts_nil, List.append_nil,
      List.append_assoc, List.append_assoc, Text.trimEnd_append _ (by
        rw [hend]
        exact List.append_ne_nil_of_left_ne_nil h.isShown.isSolid.1 _), hend]
  have hcollapse : Text.collapse (CodeUnit.space :: (Token.texts ts ++ rest)) =
      CodeUnit.space :: (Token.texts ts ++ rest.collapse) := by
    rw [← h.collapse_texts, hts, Token.texts_cons, List.append_assoc,
      Text.collapse_space_append ht.isSolid, Text.collapse_append ht.isSolid.2]
  rcases hlead with rfl | rfl
  · rw [List.nil_append, h.collapse_texts, Text.trim, hfirst, hlast]
  · rw [List.singleton_append, hcollapse, Text.trim, Text.trimStart_space, hfirst, hlast]

end Laid

/-! ### Formatting -/

/-- A token that ends before a text ends before it also when it is collapsed and trimmed. -/
lemma endsBefore_trimEnd_collapse {kind : TokenKind} (h : kind.endsBefore rest) :
    kind.endsBefore rest.collapse.trimEnd := by
  cases kind with
  | openParen | closeParen | space => rfl
  | endOfFile =>
    obtain rfl : rest = [] := by simpa [TokenKind.endsBefore] using h
    rfl
  | identifier =>
    simp only [TokenKind.endsBefore, Bool.not_eq_true'] at h ⊢
    exact Text.head_trimEnd (Text.head_collapse (by decide) h)
  | integer =>
    simp only [TokenKind.endsBefore, Bool.not_eq_true'] at h ⊢
    exact Text.head_trimEnd (Text.head_collapse (by decide) h)

/-- Formatting leaves tokens that are laid out, and lays out what follows them. -/
theorem Laid.expression_append (h : Laid ts last) {lead : Text}
    (hlead : lead = [] ∨ lead = [CodeUnit.space]) (hread : Token.AreRead ts rest) :
    expression (lead ++ (Token.texts ts ++ rest)) =
      (⟨(Token.texts ts).length, rest.collapse.trimEnd⟩ : Lexer).scan.toExcept.map fun us =>
        Token.texts ts ++ layoutAfter last (us.filter isVisible) := by
  have hread' : Token.AreRead ts rest.collapse.trimEnd := by
    obtain ⟨init, rfl⟩ := h.exists_append
    refine hread.congr ?_
    have hends : last.kind.endsBefore rest := by
      obtain ⟨-, -, hends, -⟩ := (Token.areRead_append.mp hread).2
      simpa using hends
    exact endsBefore_trimEnd_collapse hends
  obtain ⟨last', hplaced, hkind⟩ := h.placed 0
  rw [expression, Text.tokens_eq_scan, h.trim_collapse_texts hlead, Lexer.ofText,
    Lexer.scan_texts 0 hread', Nat.zero_add]
  cases hscan : (⟨(Token.texts ts).length, rest.collapse.trimEnd⟩ : Lexer).scan with
  | mk us fault =>
    cases fault with
    | some c => simp [Scan.toExcept, Scan.after, Except.map]
    | none =>
      simp [Scan.toExcept, Scan.after, Except.map, hplaced.layout_append, layoutAfter_congr hkind]

end Texts

end Sprig.Format
