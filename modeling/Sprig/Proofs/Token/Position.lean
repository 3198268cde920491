import Sprig.Proofs.Token.Scan

/-!
# Where tokens stand

A scan goes through a text from the left to the right. Each of its tokens stands in the text at its
position and is as long as a token of its kind can be there. The scan stops at the first place where
no token can start: the units inside a token could start one of their own, so none of them is
passed over.
-/

namespace Sprig

/-- A token that the units of a text at its position are the longest of. -/
structure Token.StandsIn (source : Text) (t : Token) : Prop where
  position_le : t.position ≤ source.length
  lexeme?_drop : Text.lexeme? (source.drop t.position) = some (t.kind, t.text)

/-- The first place of a text at which no token can start. -/
structure Text.IsFault (source : Text) (p : Nat) : Prop where
  lexeme?_drop : Text.lexeme? (source.drop p) = none
  first : ∀ i < p, Text.lexeme? (source.drop i) ≠ none

namespace Token

variable {source : Text} {t : Token}

/-- A token is cut out of its text. -/
lemma StandsIn.text_eq (h : t.StandsIn source) :
    t.text = (source.drop t.position).take t.text.length := by
  obtain ⟨rest, hdrop, -, -⟩ := Text.lexeme?_eq_some_iff.mp h.lexeme?_drop
  rw [hdrop, List.take_left]

lemma StandsIn.kind_eq_endOfFile_iff (h : t.StandsIn source) :
    t.kind = .endOfFile ↔ t.position = source.length := by
  obtain ⟨rest, hdrop, haccepts, hends⟩ := Text.lexeme?_eq_some_iff.mp h.lexeme?_drop
  constructor
  · intro hkind
    have hrest : rest = [] := by simpa [hkind, TokenKind.endsBefore] using hends
    have hlength := List.drop_eq_nil_iff.mp
      (hdrop.trans (by rw [text_eq_nil haccepts hkind, hrest, List.append_nil]))
    exact le_antisymm h.position_le hlength
  · intro hposition
    have hlexeme := h.lexeme?_drop
    rw [hposition, List.drop_length] at hlexeme
    exact (congrArg Prod.fst (Option.some.inj hlexeme)).symm

end Token

namespace Text

variable {source w rest : Text} {u : CodeUnit} {kind : TokenKind} {p i : Nat}

lemma IsFault.lt_length (h : source.IsFault p) : p < source.length := by
  by_contra hle
  have hnone := h.lexeme?_drop
  rw [List.drop_eq_nil_of_le (not_lt.mp hle)] at hnone
  cases hnone

/-! ### Units inside tokens -/

lemma lexeme?_ne_none_of_isAlphanumeric (hu : u.isAlphanumeric) (rest : Text) :
    lexeme? (u :: rest) ≠ none := by
  rcases CodeUnit.isAlphanumeric_iff.mp hu with hletter | hdigit
  · simp only [lexeme?]
    split_ifs <;> simp
  · simp only [lexeme?, hdigit]
    split_ifs <;> simp_all

/-- Only the first unit of a token can be something else than a letter or a digit. -/
lemma isAlphanumeric_of_mem_tail (hw : kind.accepts (u :: w)) : ∀ v ∈ w, v.isAlphanumeric := by
  cases kind with
  | openParen | closeParen | space =>
    obtain ⟨-, rfl⟩ : u = _ ∧ w = [] := by simpa [TokenKind.accepts] using hw
    simp
  | endOfFile => simp [TokenKind.accepts] at hw
  | identifier => exact List.all_eq_true.mp (isIdentifier_cons.mp hw).2
  | integer =>
    intro v hv
    have hdigits : w.all CodeUnit.isDigit := by
      rcases isInteger_cons.mp hw with ⟨-, hdigits⟩ | ⟨-, hall⟩
      · exact (isDigits_iff.mp hdigits).2
      · exact hall
    exact CodeUnit.isAlphanumeric_of_isDigit (List.all_eq_true.mp hdigits v hv)

/-- A token could start at every unit of a token. -/
lemma lexeme?_drop_ne_none (hw : kind.accepts w) (hrest : kind.endsBefore rest)
    (hi : i < w.length) : lexeme? ((w ++ rest).drop i) ≠ none := by
  cases w with
  | nil => simp at hi
  | cons u w =>
    cases i with
    | zero =>
      rw [List.drop_zero, lexeme?_append hw hrest]
      exact Option.some_ne_none _
    | succ i =>
      -- A letter or a digit starts a token of its own.
      have hi' : i < w.length := by simpa using hi
      rw [List.cons_append, List.drop_succ_cons, List.drop_append_of_le_length hi'.le,
        List.drop_eq_getElem_cons hi']
      exact lexeme?_ne_none_of_isAlphanumeric
        (isAlphanumeric_of_mem_tail hw _ (List.getElem_mem hi')) _

end Text

namespace Lexer

variable {source : Text} {l l' : Lexer} {t : Token} {c : SyntaxError} {unit : CodeUnit} {p : Nat}

/-! ### Reading from left to right -/

/-- A lexer that has come to its position in a text by reading tokens. -/
structure Reads (source : Text) (l : Lexer) : Prop where
  position_le : l.position ≤ source.length
  rest_eq : l.rest = source.drop l.position
  starts : ∀ i < l.position, Text.lexeme? (source.drop i) ≠ none

lemma reads_ofText (source : Text) : (ofText source).Reads source where
  position_le := Nat.zero_le _
  rest_eq := rfl
  starts := fun i hi => absurd hi (Nat.not_lt_zero i)

lemma Reads.standsIn (h : l.Reads source) (hnext : l.next = .ok (t, l')) : t.StandsIn source := by
  obtain ⟨hrest, hposition, -, haccepts, hends⟩ := next_eq_ok_iff.mp hnext
  refine ⟨hposition ▸ h.position_le, ?_⟩
  rw [hposition, ← h.rest_eq, hrest]
  exact Text.lexeme?_append haccepts hends

/-- A token more has been read. -/
lemma Reads.next (h : l.Reads source) (hnext : l.next = .ok (t, l')) : l'.Reads source := by
  obtain ⟨hrest, -, hposition, haccepts, hends⟩ := next_eq_ok_iff.mp hnext
  have hdrop : source.drop l.position = t.text ++ l'.rest := h.rest_eq.symm.trans hrest
  have hlength := congrArg List.length hdrop
  rw [List.length_drop, List.length_append] at hlength
  have hle := h.position_le
  refine ⟨by omega, ?_, ?_⟩
  · rw [hposition, ← List.drop_drop, hdrop, List.drop_left]
  · intro i hi
    -- The place is before the token or inside it.
    by_cases hbefore : i < l.position
    · exact h.starts i hbefore
    · have hinside := Text.lexeme?_drop_ne_none (i := i - l.position) haccepts hends (by omega)
      rwa [← hdrop, List.drop_drop, Nat.add_sub_cancel' (not_lt.mp hbefore)] at hinside

/-- Where a lexer fails is the first place at which no token can start. -/
lemma Reads.isFault (h : l.Reads source) (hnext : l.next = .error c) :
    source.IsFault l.position ∧ ∃ unit, source[l.position]? = some unit ∧
      c = .unexpectedUnit unit l.position := by
  obtain ⟨hlexeme, rfl⟩ := next_eq_error_iff.mp hnext
  have hfault : source.IsFault l.position := ⟨h.rest_eq ▸ hlexeme, h.starts⟩
  refine ⟨hfault, _, List.getElem?_eq_getElem hfault.lt_length, ?_⟩
  rw [h.rest_eq, List.drop_eq_getElem_cons hfault.lt_length]
  rfl

/-! ### All tokens -/

/-- The tokens of a scan stand in the text. -/
theorem Reads.standsIn_of_mem_scan (h : l.Reads source) :
    ∀ t ∈ l.scan.tokens, t.StandsIn source := by
  refine scan_induction (motive := fun l s => l.Reads source → ∀ t ∈ s.tokens, t.StandsIn source)
    ?_ ?_ ?_ l h
  · simp
  · intro l t l' hnext _ h
    simpa using h.standsIn hnext
  · intro l t l' hnext _ ih h
    simpa using ⟨h.standsIn hnext, ih (h.next hnext)⟩

/-- A scan stops at the first place at which no token can start. -/
theorem Reads.isFault_of_scan (h : l.Reads source) (hfault : l.scan.fault = some c) :
    ∃ unit p, c = .unexpectedUnit unit p ∧ source[p]? = some unit ∧ source.IsFault p := by
  refine scan_induction (motive := fun l s => l.Reads source → s.fault = some c →
    ∃ unit p, c = .unexpectedUnit unit p ∧ source[p]? = some unit ∧ source.IsFault p)
    ?_ ?_ ?_ l h hfault
  · intro l c' hnext h hc
    obtain rfl : c' = c := by simpa using hc
    obtain ⟨hplace, unit, hunit, hc⟩ := h.isFault hnext
    exact ⟨unit, _, hc, hunit, hplace⟩
  · simp
  · intro l t l' hnext _ ih h hc
    exact ih (h.next hnext) hc

/-- The tokens before a fault start before it. -/
lemma position_lt_of_fault (hfault : l.scan.fault = some (.unexpectedUnit unit p)) :
    ∀ t ∈ l.scan.tokens, t.position < p := by
  suffices h : l.position ≤ p ∧ ∀ t ∈ l.scan.tokens, t.position < p from h.2
  refine scan_induction (motive := fun l s => s.fault = some (.unexpectedUnit unit p) →
    l.position ≤ p ∧ ∀ t ∈ s.tokens, t.position < p) ?_ ?_ ?_ l hfault
  · intro l c hnext hc
    obtain rfl := Option.some.inj hc
    obtain ⟨-, hunit⟩ := next_eq_error_iff.mp hnext
    obtain ⟨-, rfl⟩ := SyntaxError.unexpectedUnit.inj hunit
    simp
  · simp
  · intro l t l' hnext hkind ih hc
    obtain ⟨hle, htokens⟩ := ih hc
    obtain ⟨-, hposition, hposition', haccepts, -⟩ := next_eq_ok_iff.mp hnext
    have hpos := List.length_pos_iff.mpr (text_ne_nil_of_accepts hkind haccepts)
    refine ⟨by omega, ?_⟩
    simpa using ⟨by omega, htokens⟩

end Lexer

end Sprig
