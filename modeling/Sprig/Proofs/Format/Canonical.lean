import Sprig.Proofs.Format.Layout
import Sprig.Proofs.Text.Lines

/-!
# Text that is laid out already

The layout of tokens that show is the text of tokens in the layout of the grammar, so formatting it
once more changes nothing. The same holds of a line: what it becomes is trimmed, fits on one line,
and is a line of the same kind that stays as it is.
-/

namespace Sprig.Format

variable {t u : Text}

/-! ### Layouts -/

lemma IsShown.areRead {t : Token} (h : IsShown t) : Token.AreRead [t] [] :=
  ⟨h.kind_ne_endOfFile, h.accepts, TokenKind.endsBefore_of_isApart h.kind_ne_endOfFile rfl, trivial⟩

/-- What follows tokens that are laid out may be changed if the last one still ends there. -/
lemma Laid.areRead_congr {ts : List Token} {last : Token} {rest rest' : Text} (h : Laid ts last)
    (hread : Token.AreRead ts rest) (hrest : last.kind.endsBefore rest') :
    Token.AreRead ts rest' := by
  obtain ⟨init, rfl⟩ := h.exists_append
  exact hread.congr hrest

/-- One more token goes after tokens that are laid out, with a space before it or not. -/
lemma Laid.exists_snoc {ts : List Token} {last t : Token} (h : Laid ts last)
    (hread : Token.AreRead ts []) (ht : IsShown t) :
    ∃ us, Laid us t ∧ us.filter isVisible = ts.filter isVisible ++ [t] ∧ Token.AreRead us [] := by
  have hlast : last.kind ≠ .endOfFile := h.isShown.kind_ne_endOfFile
  by_cases hspace : spaceBetween last t
  · have hhidden : isVisible ⟨.space, [CodeUnit.space], 0⟩ = false := rfl
    have hread' : Token.AreRead [⟨.space, [CodeUnit.space], 0⟩, t] [] :=
      ⟨by simp, rfl, rfl, ht.areRead⟩
    refine ⟨ts ++ [⟨.space, [CodeUnit.space], 0⟩] ++ [t], .spaced h rfl rfl ht hspace, ?_, ?_⟩
    · simp [ht.isVisible, hhidden]
    · rw [List.append_assoc]
      refine Token.areRead_append.mpr ⟨h.areRead_congr hread ?_, hread'⟩
      exact TokenKind.endsBefore_of_isApart hlast (by simp)
  · rw [Bool.not_eq_true] at hspace
    refine ⟨ts ++ [t], .tight h ht hspace, by simp [ht.isVisible], ?_⟩
    refine Token.areRead_append.mpr ⟨h.areRead_congr hread ?_, ht.areRead⟩
    -- there is no space after an opening or before a closing parenthesis only
    by_cases hopen : last.kind = .openParen
    · rw [hopen]
      rfl
    · have hclose : t.kind = .closeParen := by simpa [spaceBetween, hopen] using hspace
      rw [Token.texts_cons, Token.text_eq_closeParen ht.accepts hclose]
      exact TokenKind.endsBefore_of_isApart hlast (by simp)

/-- Tokens that show can be laid out. -/
lemma exists_laid {shown : List Token} (hne : shown ≠ []) (h : ∀ t ∈ shown, IsShown t) :
    ∃ ts last, Laid ts last ∧ ts.filter isVisible = shown ∧ Token.AreRead ts [] := by
  induction shown using List.reverseRecOn with
  | nil => exact absurd rfl hne
  | append_singleton shown t ih =>
    have ht : IsShown t := h t (by simp)
    by_cases hshown : shown = []
    · exact ⟨[t], t, .single ht, by simp [hshown, ht.isVisible], ht.areRead⟩
    · obtain ⟨ts, last, hlaid, hfilter, hread⟩ := ih hshown fun t ht => h t (by simp [ht])
      obtain ⟨us, hlaid', hfilter', hread'⟩ := hlaid.exists_snoc hread ht
      exact ⟨us, t, hlaid', by rw [hfilter', hfilter], hread'⟩

/-- Tokens that are laid out stay as they are. -/
lemma Laid.expression_texts {ts : List Token} {last : Token} (h : Laid ts last)
    (hread : Token.AreRead ts []) : expression (Token.texts ts) = .ok (Token.texts ts) := by
  have happend := h.expression_append (Or.inl rfl) hread
  simpa [Text.trimEnd, Scan.toExcept, Except.map, isVisible, layoutAfter] using happend

/-! ### Expressions -/

/-- A token shows if not all its units are blanks. -/
lemma isVisible_of_mem_text {t : Token} {u : CodeUnit} (haccepts : t.kind.accepts t.text)
    (hu : u ∈ t.text) (hblank : u.isBlank = false) : isVisible t := by
  rw [isVisible_iff]
  constructor
  · intro hkind
    rw [Token.text_eq_space haccepts hkind, List.mem_singleton] at hu
    rw [hu] at hblank
    exact absurd hblank (by decide)
  · intro hkind
    rw [Token.text_eq_nil haccepts hkind] at hu
    cases hu

/-- The tokens of a text that shows anything are not all spaces. -/
lemma filter_isVisible_ne_nil {source : Text} {ts : List Token} (hne : source.trim ≠ [])
    (h : source.collapse.trim.tokens = .ok ts) : ts.filter isVisible ≠ [] := by
  rw [Text.tokens_eq_scan, Scan.toExcept_eq_ok_iff] at h
  obtain ⟨hfault, rfl⟩ := h
  obtain ⟨u, hu, hblank⟩ := Text.exists_mem_of_trim_ne_nil hne
  have hmem : u ∈ Token.texts (Lexer.ofText source.collapse.trim).scan.tokens := by
    rw [Lexer.texts_scan _ hfault]
    exact Text.mem_trim (Text.mem_collapse hu hblank) hblank
  obtain ⟨t, ht, hut⟩ := List.mem_flatMap.mp hmem
  have hvisible := isVisible_of_mem_text (Lexer.accepts_of_mem_scan _ t ht) hut hblank
  exact List.ne_nil_of_mem (List.mem_filter.mpr ⟨ht, hvisible⟩)

/-- What is made of a text that is not blank are tokens in the layout of the grammar. -/
theorem exists_laid_of_expression {source : Text} (hne : source.trim ≠ [])
    (h : expression source = .ok t) :
    ∃ ts last, Laid ts last ∧ Token.AreRead ts [] ∧ t = Token.texts ts := by
  obtain ⟨tokens, htokens, rfl⟩ := expression_eq_ok_iff.mp h
  obtain ⟨ts, last, hlaid, hfilter, hread⟩ :=
    exists_laid (filter_isVisible_ne_nil hne htokens) (isShown_of_tokens htokens)
  exact ⟨ts, last, hlaid, hread, by rw [← hfilter, hlaid.layout_filter]⟩

/-! ### Texts of laid out tokens -/

section Texts

variable {ts : List Token} {last : Token}

lemma Laid.isTrimmed_texts (h : Laid ts last) : Text.IsTrimmed (Token.texts ts) := by
  induction h with
  | single ht => simpa using ht.isSolid.isTrimmed
  | tight _ ht _ ih => simpa using ih.append (m := []) ht.isSolid.isTrimmed
  | spaced _ _ htext ht _ ih =>
    simpa [htext] using ih.append (m := [CodeUnit.space]) ht.isSolid.isTrimmed

lemma IsShown.notMem_lineFeed {t : Token} (h : IsShown t) : CodeUnit.lineFeed ∉ t.text := by
  intro hfeed
  exact absurd (h.isSolid.2 _ hfeed) (by decide)

lemma Laid.notMem_lineFeed (h : Laid ts last) : CodeUnit.lineFeed ∉ Token.texts ts := by
  induction h with
  | single ht => simpa using ht.notMem_lineFeed
  | tight _ ht _ ih => simpa using ⟨ih, ht.notMem_lineFeed⟩
  | spaced _ _ htext ht _ ih => simpa [htext] using ⟨ih, by decide, ht.notMem_lineFeed⟩

/-- No token starts with a semicolon. -/
lemma IsShown.head?_ne {t : Token} (h : IsShown t) : t.text.head? ≠ some CodeUnit.semicolon := by
  intro hhead
  obtain ⟨w, hw⟩ := List.head?_eq_some_iff.mp hhead
  have hlexeme : (t.text ++ []).lexeme? = some (t.kind, t.text) :=
    Text.lexeme?_append h.accepts (TokenKind.endsBefore_of_isApart h.kind_ne_endOfFile rfl)
  rw [hw, List.append_nil] at hlexeme
  have hnone : Text.lexeme? (CodeUnit.semicolon :: w) = none := rfl
  rw [hnone] at hlexeme
  cases hlexeme

lemma Laid.lineKind_texts (h : Laid ts last) : Text.lineKind (Token.texts ts) = .expression := by
  have htrimmed := h.isTrimmed_texts
  have hcomment : Text.isComment (Token.texts ts) = false := by
    obtain ⟨t, tail, rfl, ht⟩ := h.exists_cons
    obtain ⟨u, w, hw⟩ := List.exists_cons_of_ne_nil ht.isSolid.1
    have hhead := ht.head?_ne
    rw [Text.isComment, htrimmed.trimStart_eq, Token.texts_cons, hw]
    simpa [hw] using hhead
  simp [Text.lineKind, htrimmed.trim_eq, htrimmed.ne_nil, hcomment]

end Texts

/-! ### Lines -/

lemma lineKind_eq_blank_iff : t.lineKind = .blank ↔ t.trim = [] := by
  simp only [Text.lineKind]
  split_ifs with hblank <;> simp [hblank]

lemma line_eq_none_iff : line t = .ok none ↔ t.lineKind = .blank := by
  cases hkind : t.lineKind with
  | blank => simp [line, hkind]
  | comment => simp [line, hkind]
  | expression => cases hexpression : expression t <;> simp [line, hkind, hexpression, Except.map]

/-- What a line becomes: a comment is trimmed, an expression is laid out. -/
lemma line_eq_some_iff : line t = .ok (some u) ↔
    (t.lineKind = .comment ∧ t.trim = u) ∨ (t.lineKind = .expression ∧ expression t = .ok u) := by
  cases hkind : t.lineKind with
  | blank => simp [line, hkind]
  | comment => simp [line, hkind]
  | expression => cases hexpression : expression t <;> simp [line, hkind, hexpression, Except.map]

/-- A line that formatting leaves as it is. -/
structure IsFormatted (u : Text) : Prop where
  isTrimmed : u.IsTrimmed
  notMem_lineFeed : CodeUnit.lineFeed ∉ u
  line_eq : line u = .ok (some u)

lemma IsFormatted.isLine (h : IsFormatted u) : u.IsLine :=
  h.isTrimmed.isLine h.notMem_lineFeed

lemma line_nil : line [] = .ok none := rfl

lemma Laid.isFormatted {ts : List Token} {last : Token} (h : Laid ts last)
    (hread : Token.AreRead ts []) : IsFormatted (Token.texts ts) where
  isTrimmed := h.isTrimmed_texts
  notMem_lineFeed := h.notMem_lineFeed
  line_eq := line_eq_some_iff.mpr (Or.inr ⟨h.lineKind_texts, h.expression_texts hread⟩)

/-- Trimming keeps a line what it is. -/
lemma lineKind_trim (t : Text) : t.trim.lineKind = t.lineKind := by
  by_cases hne : t.trim = []
  · rw [hne, Text.lineKind, Text.lineKind, if_pos hne]
    rfl
  · have htrimmed := Text.isTrimmed_trim hne
    simp [Text.lineKind, Text.isComment, htrimmed.trim_eq, htrimmed.trimStart_eq,
      Text.head?_trim hne]

lemma isFormatted_trim (hkind : t.lineKind = .comment) (hfeed : CodeUnit.lineFeed ∉ t) :
    IsFormatted t.trim := by
  have hblank : t.lineKind ≠ .blank := by simp [hkind]
  have htrimmed : t.trim.IsTrimmed := Text.isTrimmed_trim (mt lineKind_eq_blank_iff.mpr hblank)
  refine ⟨htrimmed, fun h => hfeed (t.trim_sublist.subset h), ?_⟩
  exact line_eq_some_iff.mpr (Or.inl ⟨(lineKind_trim t).trans hkind, htrimmed.trim_eq⟩)

/-- An expression becomes tokens in the layout of the grammar. -/
lemma exists_laid_of_lineKind (hkind : t.lineKind = .expression) (h : expression t = .ok u) :
    ∃ ts last, Laid ts last ∧ Token.AreRead ts [] ∧ u = Token.texts ts := by
  have hblank : t.lineKind ≠ .blank := by simp [hkind]
  exact exists_laid_of_expression (mt lineKind_eq_blank_iff.mpr hblank) h

/-- What formatting makes of a line stays as it is when it is formatted again. -/
theorem isFormatted_of_line (h : line t = .ok (some u)) (hfeed : CodeUnit.lineFeed ∉ t) :
    IsFormatted u := by
  rcases line_eq_some_iff.mp h with ⟨hkind, rfl⟩ | ⟨hkind, hexpression⟩
  · exact isFormatted_trim hkind hfeed
  · obtain ⟨ts, last, hlaid, hread, rfl⟩ := exists_laid_of_lineKind hkind hexpression
    exact hlaid.isFormatted hread

end Sprig.Format
