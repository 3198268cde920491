import Sprig.Proofs.Evaluation.Soundness
import Sprig.Proofs.Format.Layout
import Sprig.Proofs.Reader.Refusal

/-!
# Formatting keeps what a text means

All that a reader takes before it stops is in the layout of the grammar, or it would have stopped
earlier. So formatting leaves that part as it is, and the reader gets to the same point again: to
the same value, or to the same name or word that it cannot go on with. After that point the text
may be laid out in another way.
-/

namespace Sprig

open Format

/-! ### What has been taken is laid out -/

/-- Tokens that are laid out, and a space after them. -/
def IsSpaced (ts : List Token) : Prop :=
  ∃ init last space, ts = init ++ [space] ∧ Laid init last ∧ last.kind ≠ .openParen ∧
    space.kind = .space ∧ space.text = [CodeUnit.space]

/-- How the tokens are laid out that lead to a stage. -/
def Stage.Lays : Stage → List Token → Prop
  | .start, _ => False
  | .expression _, ts => ts = [] ∨ IsSpaced ts
  | .inside _, ts => IsSpaced ts
  | .head _, ts => ∃ last, Laid ts last ∧ last.kind = .openParen
  | .word .., ts | .name .., ts | .value _, ts => ∃ last, Laid ts last ∧ last.kind ≠ .openParen
  | .extra .., _ => True

/-- A stage after a token that a space or a closing parenthesis may follow. -/
def Stage.isSettled : Stage → Bool
  | .word .. | .name .. | .value _ => true
  | _ => false

lemma Stage.isOpen_of_isSettled {stage : Stage} (h : stage.isSettled) : stage.isOpen := by
  cases stage with
  | word | name | value => rfl
  | _ => simp [isSettled] at h

lemma Stage.Lays.exists_laid {stage : Stage} {ts : List Token} (h : stage.Lays ts)
    (hsettled : stage.isSettled) : ∃ last, Laid ts last ∧ last.kind ≠ .openParen := by
  cases stage with
  | word | name | value => exact h
  | _ => simp [isSettled] at hsettled

namespace Reader

variable {limit : Nat} {r r' : Reader} {env : Bindings} {frames : List Frame} {ts : List Token}
  {t last : Token} {rest : Text} {e : Error}

lemma isShown_of_kind (haccepts : t.kind.accepts t.text) (hspace : t.kind ≠ .space)
    (hend : t.kind ≠ .endOfFile) : IsShown t :=
  ⟨haccepts, isVisible_iff.mpr ⟨hspace, hend⟩⟩

lemma isSpaced_append (h : ∃ last, Laid ts last ∧ last.kind ≠ .openParen)
    (haccepts : t.kind.accepts t.text) (hkind : t.kind = .space) : IsSpaced (ts ++ [t]) := by
  obtain ⟨last, hlaid, hlast⟩ := h
  exact ⟨ts, last, t, rfl, hlaid, hlast, hkind, Token.text_eq_space haccepts hkind⟩

/-- The first token of an expression stands at the start or after a space. -/
lemma laid_first (h : ts = [] ∨ IsSpaced ts) (ht : IsShown t) (hclose : t.kind ≠ .closeParen) :
    Laid (ts ++ [t]) t := by
  rcases h with rfl | ⟨init, last, space, rfl, hlaid, hlast, hkind, htext⟩
  · exact .single ht
  · exact .spaced hlaid hkind htext ht (by simp [spaceBetween, hlast, hclose])

lemma lays_of_enters (h : ts = [] ∨ IsSpaced ts) (haccepts : t.kind.accepts t.text)
    (henters : Enters limit env frames t r) : r.stage.Lays (ts ++ [t]) := by
  cases henters with
  | integer hkind =>
    have ht : IsShown t := isShown_of_kind haccepts (by simp [hkind]) (by simp [hkind])
    exact ⟨t, laid_first h ht (by simp [hkind]), by simp [hkind]⟩
  | name hkind =>
    have ht : IsShown t := isShown_of_kind haccepts (by simp [hkind]) (by simp [hkind])
    exact ⟨t, laid_first h ht (by simp [hkind]), by simp [hkind]⟩
  | form hkind =>
    have ht : IsShown t := isShown_of_kind haccepts (by simp [hkind]) (by simp [hkind])
    exact ⟨t, laid_first h ht (by simp [hkind]), hkind⟩

/-- A closing parenthesis has no space before it. -/
lemma laid_closeParen (h : Laid ts last) (haccepts : t.kind.accepts t.text)
    (hkind : t.kind = .closeParen) : Laid (ts ++ [t]) t :=
  .tight h (isShown_of_kind haccepts (by simp [hkind]) (by simp [hkind]))
    (by simp [spaceBetween, hkind])

theorem lays_of_moves (haccepts : t.kind.accepts t.text) (hend : t.kind ≠ .endOfFile)
    (hmoves : Moves limit r t r') (h : r.stage.Lays ts) : r'.stage.Lays (ts ++ [t]) := by
  cases hmoves with
  | skip => exact h.elim
  | first => exact h.elim
  | expression _ henters => exact lays_of_enters h haccepts henters
  | head hkind =>
    obtain ⟨last, hlaid, hlast⟩ := h
    have ht : IsShown t := isShown_of_kind haccepts (by simp [hkind]) hend
    exact ⟨t, .tight hlaid ht (by simp [spaceBetween, hlast]), by simp [hkind]⟩
  | operator hkind => exact Or.inr (isSpaced_append h haccepts hkind)
  | letHead hkind => exact isSpaced_append h haccepts hkind
  | name hkind =>
    have ht : IsShown t := isShown_of_kind haccepts (by simp [hkind]) hend
    exact ⟨t, laid_first (Or.inr h) ht (by simp [hkind]), by simp [hkind]⟩
  | body _ _ henters => exact lays_of_enters (Or.inr h) haccepts henters
  | bound hkind => exact Or.inr (isSpaced_append h haccepts hkind)
  | nameBody hkind =>
    obtain ⟨last, hlaid, -⟩ := h
    exact ⟨t, laid_closeParen hlaid haccepts hkind, by simp [hkind]⟩
  | finish hkind => exact absurd hkind hend
  | left hkind => exact Or.inr (isSpaced_append h haccepts hkind)
  | right hkind =>
    obtain ⟨last, hlaid, -⟩ := h
    exact ⟨t, laid_closeParen hlaid haccepts hkind, by simp [hkind]⟩
  | extra => trivial
  | bind hkind => exact isSpaced_append h haccepts hkind
  | close hkind =>
    obtain ⟨last, hlaid, -⟩ := h
    exact ⟨t, laid_closeParen hlaid haccepts hkind, by simp [hkind]⟩

theorem lays_of_feedAll (hread : Token.AreRead ts rest)
    (h : feedAll limit ⟨.expression [], []⟩ ts = .ok r) : r.stage.Lays ts := by
  have hinit : (Stage.expression []).Lays [] := Or.inl rfl
  refine feedAll_induction (motive := fun r ts => r.stage.Lays ts) ?_ hinit h
  intro r₁ r₂ taken t ht hmoves hlays
  exact lays_of_moves (hread.accepts t ht) (hread.kind_ne t ht) hmoves hlays

/-! ### Where a reader stops -/

/-- A reader that fails by its evaluation has just taken a token that a space or a closing
parenthesis may follow, and fails at any token, or at any closing parenthesis. -/
lemma isSettled_of_feed_eq_error (h : r.feed limit t = .error e)
    (hmalformed : ∀ c, e ≠ .malformed c) (hdepth : ∀ n, e ≠ .tooDeep n) :
    r.stage.isSettled ∧ ((∀ u, r.feed limit u = .error e) ∨
      t.kind = .closeParen ∧ ∀ u : Token, u.kind = .closeParen → r.feed limit u = .error e) := by
  have hbars {frames : List Frame} : ¬ Bars limit frames t e := by
    intro hbars
    rcases hbars.eq_tooDeep_or with he | ⟨c, he, -⟩
    · exact hdepth _ he
    · exact hmalformed c he
  cases refuses_of_feed h with
  | first _ h | expression h | body _ _ h => exact absurd h hbars
  | word hop hlet => exact ⟨rfl, Or.inl fun u => by simp [feed, hop, hlet]⟩
  | late => exact ⟨rfl, Or.inl fun u => rfl⟩
  | nameBody hkind hlimit hvalue =>
    refine ⟨rfl, Or.inr ⟨hkind, fun u hu => ?_⟩⟩
    simp [feed, hu, not_le.mpr hlimit, hvalue, Except.map]
  | nameTooDeep => exact absurd rfl (hdepth _)
  | _ => exact absurd rfl (hmalformed _)

/-- A reader at its start gets as far in tokens that are laid out as one that waits for a whole
expression. -/
lemma run_start_texts {p : Nat} (hlaid : Laid ts last) (hread : Token.AreRead ts rest) :
    start.run limit ⟨p, Token.texts ts ++ rest⟩ =
      run limit ⟨.expression [], []⟩ ⟨p, Token.texts ts ++ rest⟩ := by
  obtain ⟨t, tail, rfl, ht⟩ := hlaid.exists_cons
  obtain ⟨-, haccepts, hends, -⟩ := hread
  rw [Token.texts_cons, List.append_assoc]
  exact run_congr (Lexer.next_append p haccepts hends) (by simp [start, feed, ht.kind_ne_space])

end Reader

/-! ### Formatting -/

section Formatting

variable {limit : Nat} {source formatted : Text}

/-- Text that may follow a settled part: a space or a closing parenthesis comes first. -/
def IsTail (g : Text) : Prop :=
  g = [] ∨ (∃ g', g = CodeUnit.space :: g') ∨ ∃ g', g = CodeUnit.closeParen :: g'

lemma IsTail.isApart {g : Text} (h : IsTail g) : g.isApart := by
  rcases h with rfl | ⟨g, rfl⟩ | ⟨g, rfl⟩
  · rfl
  · simp
  · simp

lemma IsTail.exists_next {g : Text} (h : IsTail g) (p : Nat) :
    ∃ u, (⟨p, g⟩ : Lexer).next = .ok u := by
  rcases h with rfl | ⟨g, rfl⟩ | ⟨g, rfl⟩
  · exact ⟨_, rfl⟩
  · exact ⟨_, Lexer.next_space p g⟩
  · exact ⟨_, Lexer.next_closeParen p g⟩

lemma isTail_layoutAfter {last : Token} {us : List Token} (hlast : last.kind ≠ .openParen)
    (haccepts : ∀ u ∈ us, u.kind.accepts u.text) : IsTail (layoutAfter last us) := by
  cases us with
  | nil => exact Or.inl rfl
  | cons u us =>
    by_cases hkind : u.kind = .closeParen
    · have htext := Token.text_eq_closeParen (haccepts u (by simp)) hkind
      exact Or.inr (Or.inr ⟨_, by simp [layoutAfter, spaceBetween, hkind, htext]; rfl⟩)
    · exact Or.inr (Or.inl ⟨_, by simp [layoutAfter, spaceBetween, hkind, hlast]; rfl⟩)

/-- A formatted text starts with the units of all tokens that were laid out before. -/
lemma exists_tail_of_expression {lead rest : Text} {ts : List Token} {last : Token}
    (hlaid : Laid ts last) (hlast : last.kind ≠ .openParen)
    (hlead : lead = [] ∨ lead = [CodeUnit.space]) (hread : Token.AreRead ts rest)
    (h : expression (lead ++ (Token.texts ts ++ rest)) = .ok formatted) :
    ∃ g, formatted = Token.texts ts ++ g ∧ IsTail g ∧ Token.AreRead ts g := by
  rw [hlaid.expression_append hlead hread] at h
  generalize (⟨(Token.texts ts).length, rest.collapse.trimEnd⟩ : Lexer) = l at h
  cases htokens : l.scan.toExcept with
  | error c => simp [htokens, Except.map] at h
  | ok us =>
    obtain ⟨-, rfl⟩ := Scan.toExcept_eq_ok_iff.mp htokens
    have htail : IsTail (layoutAfter last (l.scan.tokens.filter isVisible)) :=
      isTail_layoutAfter hlast fun u hu => l.accepts_of_mem_scan u (List.mem_filter.mp hu).1
    rw [htokens, Except.map, Except.ok.injEq] at h
    refine ⟨_, h.symm, htail, ?_⟩
    obtain ⟨init, rfl⟩ := hlaid.exists_append
    exact hread.congr (TokenKind.endsBefore_of_isApart (hread.kind_ne last (by simp)) htail.isApart)

/-- A text with a value is formatted, to a text with that value. -/
lemma exists_formatted_of_evaluate {value : Int} (h : evaluate limit source = .ok value) :
    ∃ f, expression source = .ok f ∧ evaluate limit f = .ok value := by
  obtain ⟨lead, body, rfl, hlead, hread, hbody⟩ := exists_tokens_of_evaluate h
  obtain ⟨last, hlaid, -⟩ := (Reader.lays_of_feedAll hread hbody).exists_laid rfl
  have hformat := hlaid.expression_append hlead hread
  simp only [List.append_nil] at hformat
  refine ⟨Token.texts body, ?_, ?_⟩
  · rw [hformat]
    simp [Text.trimEnd, Scan.toExcept, Except.map, isVisible, layoutAfter]
  · rw [evaluate_eq_run, Lexer.ofText, ← List.append_nil (Token.texts body),
      Reader.run_start_texts hlaid hread, Reader.run_texts 0 hbody rfl hread,
      Reader.run_value_nil]

/-- The tokens of a text before the one that a name or a word fails at. -/
lemma exists_tokens_of_evaluate_error {e : Error} (hmalformed : ∀ c, e ≠ .malformed c)
    (hdepth : ∀ n, e ≠ .tooDeep n) (h : evaluate limit source = .error e) :
    ∃ (lead body : List Token) (t : Token) (r : Reader) (l l' : Lexer),
      source = Token.texts lead ++ (Token.texts body ++ l.rest) ∧
      (Token.texts lead = [] ∨ Token.texts lead = [CodeUnit.space]) ∧
      Token.AreRead body l.rest ∧ Reader.feedAll limit ⟨.expression [], []⟩ body = .ok r ∧
      l.next = .ok (t, l') ∧ r.feed limit t = .error e := by
  rw [evaluate_eq_run] at h
  obtain ⟨taken, t, r, l, l', hrest, hread, hnext, htaken, hfeed⟩ | ⟨c, -, rfl⟩ :=
    Reader.exists_tokens_of_run_eq_error h
  · have hne : taken ≠ [] := by
      rintro rfl
      cases htaken
      obtain ⟨hsettled, -⟩ := Reader.isSettled_of_feed_eq_error hfeed hmalformed hdepth
      simp [Reader.start, Stage.isSettled] at hsettled
    obtain ⟨lead, body, rfl, hlead, hbody, hfeedAll⟩ :=
      Reader.exists_feedAll_expression htaken hne hread
    exact ⟨lead, body, t, r, l, l', by simpa [Lexer.ofText] using hrest, hlead, hbody, hfeedAll,
      hnext, hfeed⟩
  · exact absurd rfl (hmalformed c)

/-- A name or a word that a text fails at is still met in the formatted text. -/
lemma evaluate_formatted_of_error {e : Error} (hmalformed : ∀ c, e ≠ .malformed c)
    (hdepth : ∀ n, e ≠ .tooDeep n) (hformat : expression source = .ok formatted)
    (h : evaluate limit source = .error e) : evaluate limit formatted = .error e := by
  obtain ⟨lead, body, t, r, l, l', rfl, hlead, hread, hbody, hnext, hfeed⟩ :=
    exists_tokens_of_evaluate_error hmalformed hdepth h
  obtain ⟨hsettled, hstop⟩ := Reader.isSettled_of_feed_eq_error hfeed hmalformed hdepth
  obtain ⟨last, hlaid, hlast⟩ := (Reader.lays_of_feedAll hread hbody).exists_laid hsettled
  have hreplay {g : Text} (hg : Token.AreRead body g) :
      evaluate limit (Token.texts body ++ g) =
        r.run limit ⟨0 + (Token.texts body).length, g⟩ := by
    rw [evaluate_eq_run, Lexer.ofText, Reader.run_start_texts hlaid hg,
      Reader.run_texts 0 hbody (Stage.isOpen_of_isSettled hsettled) hg]
  rcases hstop with hany | ⟨hkind, hclose⟩
  · obtain ⟨g, rfl, htail, hg⟩ := exists_tail_of_expression hlaid hlast hlead hread hformat
    obtain ⟨u, hu⟩ := htail.exists_next (0 + (Token.texts body).length)
    rw [hreplay hg]
    exact Reader.run_of_error hu (hany u.1)
  · -- The closing parenthesis belongs to what is laid out already.
    obtain ⟨hrest, -, -, haccepts, hends⟩ := Lexer.next_eq_ok_iff.mp hnext
    have htext := Token.text_eq_closeParen haccepts hkind
    have hlaid' := Reader.laid_closeParen hlaid haccepts hkind
    have hread' : Token.AreRead (body ++ [t]) l'.rest := by
      refine Token.areRead_append.mpr ⟨by simpa [hrest] using hread, ?_⟩
      exact ⟨by simp [hkind], haccepts, by simpa using hends, trivial⟩
    obtain ⟨g, rfl, -, hg⟩ := exists_tail_of_expression hlaid' (by simp [hkind]) hlead hread'
      (by simpa [hrest] using hformat)
    have htexts : Token.texts (body ++ [t]) ++ g =
        Token.texts body ++ CodeUnit.closeParen :: g := by
      simp [htext]
    have hbefore : Token.AreRead body (CodeUnit.closeParen :: g) := by
      simpa [htext] using (Token.areRead_append.mp hg).1
    rw [htexts, hreplay hbefore]
    exact Reader.run_of_error (Lexer.next_closeParen _ g) (hclose _ rfl)

/-- Formatting keeps the value of a text that has one, and the name or the word at which the
evaluation of another one fails. A text with a value is always formatted. -/
theorem evaluate_formatted (limit : Nat) (source : Text) :
    (∀ formatted, expression source = .ok formatted →
      (∀ value, evaluate limit source = .ok value → evaluate limit formatted = .ok value) ∧
      (∀ name, evaluate limit source = .error (.unboundName name) →
        evaluate limit formatted = .error (.unboundName name)) ∧
      ∀ name, evaluate limit source = .error (.unknownOperator name) →
        evaluate limit formatted = .error (.unknownOperator name)) ∧
    ∀ value, evaluate limit source = .ok value →
      ∃ formatted, expression source = .ok formatted := by
  constructor
  · intro formatted hformat
    refine ⟨?_, ?_, ?_⟩
    · intro value h
      obtain ⟨f, hf, hvalue⟩ := exists_formatted_of_evaluate h
      obtain rfl : f = formatted := Except.ok.inj (hf.symm.trans hformat)
      exact hvalue
    · intro name h
      exact evaluate_formatted_of_error (by simp) (by simp) hformat h
    · intro name h
      exact evaluate_formatted_of_error (by simp) (by simp) hformat h
  · intro value h
    obtain ⟨f, hf, -⟩ := exists_formatted_of_evaluate h
    exact ⟨f, hf⟩

/-- What follows the unbound name is laid out in another way, and never closed. -/
theorem evaluate_formatted_unbound :
    evaluate 2 " (add x  ( 1" = .error (.unboundName "x") ∧
    expression " (add x  ( 1" = .ok "(add x (1" ∧
    evaluate 2 "(add x (1" = .error (.unboundName "x") := by
  have hname : evaluate 2 " (add x  ( 1" = .error (.unboundName "x") := by decide +kernel
  have hformat : expression " (add x  ( 1" = .ok "(add x (1" := by decide +kernel
  exact ⟨hname, hformat, ((evaluate_formatted 2 _).1 _ hformat).2.1 _ hname⟩

end Formatting

end Sprig
