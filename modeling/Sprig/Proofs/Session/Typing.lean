import Sprig.Proofs.Format.Canonical
import Sprig.Proofs.Format.Preservation
import Sprig.Proofs.Session.Collection

/-!
# Typing an expression on several lines

An expression may be parted at any of its spaces and typed one piece after the other, each on a
line of its own. Every space of an expression is inside a form, so before the last piece a
parenthesis is open and the session waits for more; and what it puts together again is the
expression as it was.
-/

namespace Sprig

/-! ### Where an expression can be parted -/

section Parts

variable {limit : Nat} {source : Text} {value : Int}

/-- The tokens of a text with a value and no space before it are laid out. -/
lemma exists_laid_of_evaluate (h : evaluate limit source = .ok value)
    (hspace : source.head? ≠ some CodeUnit.space) :
    ∃ body last, source = Token.texts body ∧ Token.AreRead body [] ∧ Format.Laid body last ∧
      Reader.feedAll limit ⟨.expression [], []⟩ body = .ok ⟨.value (.ok value), []⟩ := by
  obtain ⟨lead, body, rfl, hlead, hread, hbody⟩ := exists_tokens_of_evaluate h
  obtain ⟨last, hlaid, -⟩ := (Reader.lays_of_feedAll hread hbody).exists_laid rfl
  rcases hlead with hlead | hlead
  · exact ⟨body, last, by simp [hlead], hread, hlaid, hbody⟩
  · exact absurd (by simp [hlead]) hspace

/-- Before every space of an expression a parenthesis is open. -/
lemma openDepth_pos_of_evaluate {before after : Text}
    (hsource : source = before ++ CodeUnit.space :: after) (h : evaluate limit source = .ok value)
    (hspace : source.head? ≠ some CodeUnit.space) : 0 < before.openDepth := by
  obtain ⟨body, last, htexts, hread, -, hbody⟩ := exists_laid_of_evaluate h hspace
  obtain ⟨us, t, vs, rfl, hkind, rfl, rfl⟩ :=
    Token.exists_append_of_texts_eq hread.accepts (htexts.symm.trans hsource)
  obtain ⟨r, hus, hrest⟩ := Reader.feedAll_append_eq_ok_iff.mp hbody
  obtain ⟨r', hfeed, -⟩ := Reader.feedAll_cons_eq_ok_iff.mp hrest
  have hbefore := (Token.areRead_append.mp hread).1
  have hdepth := Reader.openDepth_texts_of_feedAll hbefore.accepts hus
  have hpos : 0 < r.depth := by
    rcases (Reader.moves_of_feed hfeed).depth_pos_of_space hkind with hstart | hpos
    · -- A reader of an expression does not come back to its start.
      have hlays := Reader.lays_of_feedAll hbefore hus
      rw [hstart] at hlays
      exact hlays.elim
    · exact hpos
  have hzero : Reader.depth ⟨.expression [], []⟩ = 0 := rfl
  omega

/-- The pieces of tokens that are laid out, parted at spaces, have no blanks at their ends. -/
lemma Format.Laid.isTrimmed_of_intercalate {ts : List Token} {last : Token} {pieces : List Text}
    (h : Format.Laid ts last) (haccepts : ∀ t ∈ ts, t.kind.accepts t.text)
    (hpieces : List.intercalate [CodeUnit.space] pieces = Token.texts ts) :
    ∀ piece ∈ pieces, piece.IsTrimmed := by
  induction pieces generalizing ts with
  | nil => simp
  | cons piece pieces ih =>
    cases pieces with
    | nil =>
      obtain rfl : piece = Token.texts ts := by simpa using hpieces
      simpa using h.isTrimmed_texts
    | cons next pieces =>
      rw [List.intercalate_cons_cons, List.append_assoc] at hpieces
      obtain ⟨us, t, vs, rfl, hkind, rfl, hvs⟩ :=
        Token.exists_append_of_texts_eq haccepts hpieces.symm
      obtain ⟨⟨last', hus⟩, hlaid⟩ := h.split hkind rfl
      have htail := ih hlaid (fun t ht => haccepts t (by simp [ht])) hvs.symm
      exact List.forall_mem_cons.mpr ⟨hus.isTrimmed_texts, htail⟩

/-- No token has a colon in it. -/
lemma Format.Laid.head?_ne_colon {ts : List Token} {last : Token} (h : Format.Laid ts last) :
    (Token.texts ts).head? ≠ some CodeUnit.colon := by
  obtain ⟨t, tail, rfl, ht⟩ := h.exists_cons
  obtain ⟨u, w, hw⟩ := List.exists_cons_of_ne_nil ht.isSolid.1
  rw [Token.texts_cons, hw]
  intro hcolon
  obtain rfl : u = CodeUnit.colon := by simpa using hcolon
  rcases Token.mem_text ht.accepts (hw ▸ List.mem_cons_self) with
    ⟨-, hu⟩ | hu | hu | hu | hu
  all_goals exact absurd hu (by decide)

end Parts

namespace Session

/-- A line with a piece on it, and perhaps blanks around the piece. -/
def IsPadded (piece line : Text) : Prop :=
  ∃ before after : Text, before.isBlank ∧ after.isBlank ∧ line = before ++ piece ++ after

/-- Lines that pieces are typed on, each on a line of its own. There may be blank lines between a
piece and the next one. -/
inductive IsTyped : List Text → List Text → Prop
  | last {piece line : Text} (hline : IsPadded piece line) : IsTyped [piece] [line]
  | next {piece line : Text} {pieces blanks lines : List Text} (hline : IsPadded piece line)
    (hblanks : ∀ t ∈ blanks, t.isBlank) (h : IsTyped pieces lines) :
    IsTyped (piece :: pieces) (line :: (blanks ++ lines))

section Typed

variable {limit : Nat} {source piece line : Text} {value : Int} {pieces lines init : List Text}

/-! ### Typed lines -/

lemma IsPadded.trim_eq (h : IsPadded piece line) (hpiece : piece.IsTrimmed) :
    line.trim = piece := by
  obtain ⟨before, after, hbefore, hafter, rfl⟩ := h
  exact hpiece.trim_padded hbefore hafter

lemma IsPadded.trim_ne_nil (h : IsPadded piece line) (hpiece : piece.IsTrimmed) :
    line.trim ≠ [] := by
  rw [h.trim_eq hpiece]
  exact hpiece.ne_nil

lemma gather_eq_nil_of_isBlank {blanks : List Text} (h : ∀ t ∈ blanks, t.isBlank) :
    gather blanks = [] := by
  simp only [gather, List.filter_eq_nil_iff, List.mem_map]
  rintro _ ⟨t, ht, rfl⟩
  simp [Text.trim_eq_nil_of_isBlank (h t ht)]

namespace IsTyped

/-- A session gathers the pieces again. -/
lemma gather_eq (h : IsTyped pieces lines) (hpieces : ∀ piece ∈ pieces, piece.IsTrimmed) :
    gather lines = pieces := by
  induction h with
  | @last piece line hline =>
    have hpiece : piece.IsTrimmed := hpieces piece (by simp)
    rw [gather_cons (hline.trim_ne_nil hpiece), hline.trim_eq hpiece]
    rfl
  | @next piece line _ _ _ hline hblanks _ ih =>
    obtain ⟨hpiece, hpieces⟩ := List.forall_mem_cons.mp hpieces
    rw [gather_cons (hline.trim_ne_nil hpiece), hline.trim_eq hpiece, gather_append,
      gather_eq_nil_of_isBlank hblanks, List.nil_append, ih hpieces]

/-- The first line is not blank. -/
lemma exists_cons (h : IsTyped pieces lines) (hpieces : ∀ piece ∈ pieces, piece.IsTrimmed) :
    ∃ first rest, lines = first :: rest ∧ first.trim ≠ [] := by
  cases h with
  | @last piece line hline => exact ⟨_, _, rfl, hline.trim_ne_nil (hpieces piece (by simp))⟩
  | @next piece _ _ _ _ hline => exact ⟨_, _, rfl, hline.trim_ne_nil (hpieces piece (by simp))⟩

/-- The last line is not blank either. -/
lemma exists_snoc (h : IsTyped pieces lines) (hpieces : ∀ piece ∈ pieces, piece.IsTrimmed) :
    ∃ init line, lines = init ++ [line] ∧ gather [line] ≠ [] := by
  induction h with
  | @last piece line hline =>
    refine ⟨[], line, rfl, ?_⟩
    rw [gather_cons (hline.trim_ne_nil (hpieces piece (by simp)))]
    simp
  | @next _ first _ blanks _ _ _ _ ih =>
    obtain ⟨init, line, rfl, hline⟩ := ih (List.forall_mem_cons.mp hpieces).2
    exact ⟨first :: (blanks ++ init), line, by simp, hline⟩

/-- The lines together start with the first piece, which is no command. -/
lemma startsInput (h : IsTyped pieces lines) (hpieces : ∀ piece ∈ pieces, piece.IsTrimmed)
    (hcolon : (joined lines).head? ≠ some CodeUnit.colon) : StartsInput lines := by
  obtain ⟨first, rest, rfl, hfirst⟩ := h.exists_cons hpieces
  rw [head?_joined_cons hfirst] at hcolon
  simpa [StartsInput] using hcolon

/-- What is gathered from the first lines is not nothing. -/
lemma gather_ne_nil {taken : List Text} (h : IsTyped pieces lines)
    (hpieces : ∀ piece ∈ pieces, piece.IsTrimmed) (hne : taken ≠ []) (htaken : taken <+: lines) :
    gather taken ≠ [] := by
  obtain ⟨first, rest, rfl, hfirst⟩ := h.exists_cons hpieces
  obtain ⟨t, taken, rfl⟩ := List.exists_cons_of_ne_nil hne
  obtain ⟨rfl, -⟩ := List.cons_prefix_cons.mp htaken
  simp [gather_cons hfirst]

/-- All lines but the last are only collected. -/
lemma isCollected (h : IsTyped pieces (init ++ [line]))
    (hpieces : ∀ piece ∈ pieces, piece.IsTrimmed) (hline : gather [line] ≠ [])
    (hvalue : evaluate limit (joined (init ++ [line])) = .ok value)
    (hspace : (joined (init ++ [line])).head? ≠ some CodeUnit.space)
    (hfirst : StartsInput (init ++ [line])) : IsCollected init where
  startsInput := hfirst.of_prefix (List.prefix_append init [line])
  openDepth_pos := by
    intro taken hne htaken
    have hgather : gather taken ≠ [] :=
      h.gather_ne_nil hpieces hne (List.prefix_append_of_prefix htaken)
    obtain ⟨rest, rfl⟩ := htaken
    have hrest : gather (rest ++ [line]) ≠ [] := by simp [hline]
    have hparted : joined (taken ++ rest ++ [line]) =
        joined taken ++ CodeUnit.space :: joined (rest ++ [line]) := by
      rw [joined, List.append_assoc, gather_append, Text.intercalate_append hgather hrest]
      simp [joined]
    exact openDepth_pos_of_evaluate hparted hvalue hspace

end IsTyped

/-- An expression with a value may be typed on several lines, parted at any of its spaces, with
blanks around the pieces and blank lines between them. A session asks for more until the last line,
and answers that one with the value. -/
theorem replies_of_isTyped (h : evaluate limit source = .ok value)
    (hspace : source.head? ≠ some CodeUnit.space)
    (hpieces : List.intercalate [CodeUnit.space] pieces = source) (hlines : IsTyped pieces lines) :
    (start limit).replies lines =
      List.replicate (lines.length - 1) ⟨.more, [], []⟩ ++
        [⟨.proceed, [("=> " : Text) ++ Text.ofInt value], []⟩] := by
  obtain ⟨body, last, htexts, hread, hlaid, -⟩ := exists_laid_of_evaluate h hspace
  have htrimmed := hlaid.isTrimmed_of_intercalate hread.accepts (hpieces.trans htexts)
  have hjoined : joined lines = source := by rw [joined, hlines.gather_eq htrimmed, hpieces]
  have hne : source ≠ [] := htexts ▸ hlaid.isTrimmed_texts.ne_nil
  have hcolon : source.head? ≠ some CodeUnit.colon := htexts ▸ hlaid.head?_ne_colon
  rw [← hjoined] at h hspace hne hcolon
  have hfirst := hlines.startsInput htrimmed hcolon
  obtain ⟨init, line, rfl, hline⟩ := hlines.exists_snoc htrimmed
  have hinit := hlines.isCollected htrimmed hline h hspace hfirst
  have htake := hinit.take_of_le limit hfirst (openDepth_of_evaluate h).le
  have hanswer : (start limit).answer (joined (init ++ [line])) =
      ⟨.proceed, [("=> " : Text) ++ Text.ofInt value], []⟩ := by
    simp [answer, start, h, hne, Reply.ofLines]
  obtain ⟨hafter, hreplies⟩ := run_of_isCollected hinit limit
  rw [replies_append, hafter, hreplies, replies_singleton, htake, hanswer]
  simp

/-- A binding and its body, parted inside both, with two blank lines in between. -/
theorem replies_of_isTyped_let :
    evaluate 3 "(let x 2 (add x 1))" = .ok 3 ∧
    List.head? ("(let x 2 (add x 1))" : Text) ≠ some CodeUnit.space ∧
    List.intercalate [CodeUnit.space] ["(let x", "2 (add", "x 1))"] =
      ("(let x 2 (add x 1))" : Text) ∧
    IsTyped ["(let x", "2 (add", "x 1))"] ["\t(let x", "", " ", "2 (add ", "x 1))"] ∧
    (start 3).replies ["\t(let x", "", " ", "2 (add ", "x 1))"] =
      List.replicate 4 ⟨.more, [], []⟩ ++ [⟨.proceed, [("=> " : Text) ++ Text.ofInt 3], []⟩] := by
  have hvalue : evaluate 3 "(let x 2 (add x 1))" = .ok 3 := by decide +kernel
  have hspace : List.head? ("(let x 2 (add x 1))" : Text) ≠ some CodeUnit.space := by decide
  have hpieces : List.intercalate [CodeUnit.space] ["(let x", "2 (add", "x 1))"] =
      ("(let x 2 (add x 1))" : Text) := by
    decide +kernel
  have hlast : IsTyped ["x 1))"] ["x 1))"] :=
    .last ⟨[], [], by decide, by decide, by decide⟩
  have hbody : IsTyped ["2 (add", "x 1))"] ["2 (add ", "x 1))"] :=
    @IsTyped.next _ _ _ [] _ ⟨[], " ", by decide, by decide, by decide⟩ (by decide) hlast
  have hlines : IsTyped ["(let x", "2 (add", "x 1))"] ["\t(let x", "", " ", "2 (add ", "x 1))"] :=
    @IsTyped.next _ _ _ ["", " "] _ ⟨"\t", [], by decide, by decide, by decide⟩ (by decide) hbody
  exact ⟨hvalue, hspace, hpieces, hlines, replies_of_isTyped hvalue hspace hpieces hlines⟩

end Typed

end Session

end Sprig
