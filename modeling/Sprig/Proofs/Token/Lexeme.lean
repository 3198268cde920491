import Mathlib.Data.List.TakeWhile
import Sprig.Proofs.Text.Class
import Sprig.Token.Lexeme
import Sprig.Token.Lexer

/-!
# Finding a token

The token that a text starts with is the one whose units can be a token of its kind and cannot go
on: `Text.lexeme?` is decided by `TokenKind.accepts`, which says what a token is made of, and
`TokenKind.endsBefore`, which says where it has to end.
-/

namespace Sprig

/-- Whether a token of a kind ends where a text goes on like this. -/
def TokenKind.endsBefore : TokenKind → Text → Bool
  | .identifier, rest => !rest.head?.any CodeUnit.isAlphanumeric
  | .integer, rest => !rest.head?.any CodeUnit.isDigit
  | .endOfFile, rest => rest.isEmpty
  | .openParen, _ | .closeParen, _ | .space, _ => true

namespace Token

variable {t : Token}

/-! ### Units of tokens -/

lemma text_eq_space (h : t.kind.accepts t.text) (hkind : t.kind = .space) :
    t.text = [CodeUnit.space] := by
  simpa [hkind, TokenKind.accepts] using h

lemma text_eq_openParen (h : t.kind.accepts t.text) (hkind : t.kind = .openParen) :
    t.text = [CodeUnit.openParen] := by
  simpa [hkind, TokenKind.accepts] using h

lemma text_eq_closeParen (h : t.kind.accepts t.text) (hkind : t.kind = .closeParen) :
    t.text = [CodeUnit.closeParen] := by
  simpa [hkind, TokenKind.accepts] using h

lemma text_eq_nil (h : t.kind.accepts t.text) (hkind : t.kind = .endOfFile) : t.text = [] := by
  simpa [hkind, TokenKind.accepts] using h

lemma isIdentifier_text (h : t.kind.accepts t.text) (hkind : t.kind = .identifier) :
    t.text.isIdentifier := by
  simpa [hkind, TokenKind.accepts] using h

lemma isInteger_text (h : t.kind.accepts t.text) (hkind : t.kind = .integer) :
    t.text.isInteger := by
  simpa [hkind, TokenKind.accepts] using h

end Token

namespace Text

/-! ### Runs of a class -/

lemma takeWhile_append_of_head {p : CodeUnit → Bool} {w rest : Text} (hw : w.all p)
    (hrest : rest.head?.any p = false) : (w ++ rest).takeWhile p = w := by
  have hnil : rest.takeWhile p = [] := by
    cases rest with
    | nil => rfl
    | cons u rest =>
      have hu : p u = false := by simpa using hrest
      simp [hu]
  rw [List.takeWhile_append_of_pos (by simpa using hw), hnil, List.append_nil]

lemma head_dropWhile {p : CodeUnit → Bool} (t : Text) : (t.dropWhile p).head?.any p = false := by
  induction t with
  | nil => rfl
  | cons u t ih =>
    rw [List.dropWhile_cons]
    split_ifs with h
    · exact ih
    · simpa using h

/-! ### Shapes of lexemes -/

lemma isDigits_iff {t : Text} : t.isDigits ↔ t ≠ [] ∧ t.all CodeUnit.isDigit := by
  simp [isDigits]

lemma isInteger_cons {u : CodeUnit} {t : Text} :
    isInteger (u :: t) ↔
      (u = CodeUnit.minus ∧ t.isDigits) ∨ (u.isDigit ∧ t.all CodeUnit.isDigit) := by
  by_cases h : u = CodeUnit.minus
  · subst h
    have hminus : CodeUnit.isDigit CodeUnit.minus = false := by decide
    simp [isInteger, hminus]
  · simp [isInteger, h, isDigits]

lemma isIdentifier_cons {u : CodeUnit} {t : Text} :
    isIdentifier (u :: t) ↔ u.isLetter ∧ t.all CodeUnit.isAlphanumeric := by
  simp [isIdentifier]

lemma isAlphanumeric_of_isIdentifier {w : Text} (hw : w.isIdentifier) :
    ∀ u ∈ w, u.isAlphanumeric := by
  cases w with
  | nil => simp
  | cons v w =>
    obtain ⟨hv, hall⟩ := isIdentifier_cons.mp hw
    intro u hu
    rcases List.mem_cons.mp hu with rfl | hu
    · exact CodeUnit.isAlphanumeric_iff.mpr (Or.inl hv)
    · exact List.all_eq_true.mp hall u hu

lemma isAlphanumeric_of_isInteger {w : Text} (hw : w.isInteger) :
    ∀ u ∈ w, u = CodeUnit.minus ∨ u.isAlphanumeric := by
  cases w with
  | nil => simp
  | cons v w =>
    have hdigits : ∀ u ∈ w, u.isDigit := by
      rcases isInteger_cons.mp hw with ⟨-, hdigits⟩ | ⟨-, hall⟩
      · exact List.all_eq_true.mp (isDigits_iff.mp hdigits).2
      · exact List.all_eq_true.mp hall
    intro u hu
    rcases List.mem_cons.mp hu with rfl | hu
    · rcases isInteger_cons.mp hw with ⟨rfl, -⟩ | ⟨hu, -⟩
      · exact Or.inl rfl
      · exact Or.inr (CodeUnit.isAlphanumeric_of_isDigit hu)
    · exact Or.inr (CodeUnit.isAlphanumeric_of_isDigit (hdigits u hu))

end Text

/-- The units that tokens are made of. Only a space has a blank in it. -/
lemma Token.mem_text {t : Token} {u : CodeUnit} (h : t.kind.accepts t.text) (hu : u ∈ t.text) :
    (t.kind = .space ∧ u = CodeUnit.space) ∨ u = CodeUnit.openParen ∨ u = CodeUnit.closeParen ∨
      u = CodeUnit.minus ∨ u.isAlphanumeric := by
  cases hkind : t.kind with
  | space =>
    rw [Token.text_eq_space h hkind, List.mem_singleton] at hu
    exact Or.inl ⟨rfl, hu⟩
  | openParen =>
    rw [Token.text_eq_openParen h hkind, List.mem_singleton] at hu
    exact Or.inr (Or.inl hu)
  | closeParen =>
    rw [Token.text_eq_closeParen h hkind, List.mem_singleton] at hu
    exact Or.inr (Or.inr (Or.inl hu))
  | endOfFile => simp [Token.text_eq_nil h hkind] at hu
  | identifier =>
    have hletters := Text.isAlphanumeric_of_isIdentifier (Token.isIdentifier_text h hkind) u hu
    simp [hletters]
  | integer =>
    rcases Text.isAlphanumeric_of_isInteger (Token.isInteger_text h hkind) u hu with rfl | hu
    · simp
    · simp [hu]

namespace Text

/-! ### The token at the start of a text -/

lemma lexeme?_of_isInteger {w rest : Text} (hw : w.isInteger)
    (hrest : rest.head?.any CodeUnit.isDigit = false) :
    lexeme? (w ++ rest) = some (.integer, w) := by
  cases w with
  | nil => simp [isInteger] at hw
  | cons u w =>
    rcases isInteger_cons.mp hw with ⟨rfl, hdigits⟩ | ⟨hu, hdigits⟩
    · obtain ⟨hne, hall⟩ := isDigits_iff.mp hdigits
      have hstart : startsWithDigit (w ++ rest) := by
        cases w with
        | nil => exact absurd rfl hne
        | cons v w => simpa [startsWithDigit] using (List.all_eq_true.mp hall) v (by simp)
      have hspace : CodeUnit.minus ≠ CodeUnit.space := by decide
      have hopen : CodeUnit.minus ≠ CodeUnit.openParen := by decide
      have hclose : CodeUnit.minus ≠ CodeUnit.closeParen := by decide
      simp [lexeme?, hspace, hopen, hclose, hstart, takeWhile_append_of_head hall hrest]
    · have hspace : u ≠ CodeUnit.space := CodeUnit.ne_of_holds hu (by decide)
      have hopen : u ≠ CodeUnit.openParen := CodeUnit.ne_of_holds hu (by decide)
      have hclose : u ≠ CodeUnit.closeParen := CodeUnit.ne_of_holds hu (by decide)
      simp [lexeme?, hspace, hopen, hclose, hu, takeWhile_append_of_head hdigits hrest]

lemma lexeme?_of_isIdentifier {w rest : Text} (hw : w.isIdentifier)
    (hrest : rest.head?.any CodeUnit.isAlphanumeric = false) :
    lexeme? (w ++ rest) = some (.identifier, w) := by
  cases w with
  | nil => simp [isIdentifier] at hw
  | cons u w =>
    obtain ⟨hu, hall⟩ := isIdentifier_cons.mp hw
    have hspace : u ≠ CodeUnit.space := CodeUnit.ne_of_holds hu (by decide)
    have hopen : u ≠ CodeUnit.openParen := CodeUnit.ne_of_holds hu (by decide)
    have hclose : u ≠ CodeUnit.closeParen := CodeUnit.ne_of_holds hu (by decide)
    have hminus : u ≠ CodeUnit.minus := CodeUnit.ne_of_holds hu (by decide)
    simp [lexeme?, hspace, hopen, hclose, hminus, hu, CodeUnit.isDigit_of_isLetter hu,
      takeWhile_append_of_head hall hrest]

/-- A token of the right shape that ends where it has to is found. -/
lemma lexeme?_append {kind : TokenKind} {w rest : Text} (hw : kind.accepts w)
    (hrest : kind.endsBefore rest) : lexeme? (w ++ rest) = some (kind, w) := by
  cases kind with
  | openParen | closeParen | space =>
    obtain rfl : w = _ := by simpa only [TokenKind.accepts, decide_eq_true_eq] using hw
    rfl
  | endOfFile =>
    obtain rfl : w = [] := by simpa [TokenKind.accepts] using hw
    obtain rfl : rest = [] := by simpa [TokenKind.endsBefore] using hrest
    rfl
  | integer => exact lexeme?_of_isInteger hw (by simpa [TokenKind.endsBefore] using hrest)
  | identifier => exact lexeme?_of_isIdentifier hw (by simpa [TokenKind.endsBefore] using hrest)

/-- What is found is a token of its kind, and cannot go on. -/
lemma exists_of_lexeme? {t w : Text} {kind : TokenKind} (h : t.lexeme? = some (kind, w)) :
    ∃ rest, t = w ++ rest ∧ kind.accepts w ∧ kind.endsBefore rest := by
  cases t with
  | nil =>
    obtain ⟨rfl, rfl⟩ : TokenKind.endOfFile = kind ∧ [] = w := by simpa [lexeme?] using h
    exact ⟨[], rfl, rfl, rfl⟩
  | cons u t =>
    simp only [lexeme?] at h
    split_ifs at h with hspace hopen hclose hinteger hletter
    · cases h
      exact ⟨t, rfl, by simpa [TokenKind.accepts] using hspace, rfl⟩
    · cases h
      exact ⟨t, rfl, by simpa [TokenKind.accepts] using hopen, rfl⟩
    · cases h
      exact ⟨t, rfl, by simpa [TokenKind.accepts] using hclose, rfl⟩
    · cases h
      refine ⟨t.dropWhile CodeUnit.isDigit, by simp, ?_, ?_⟩
      · simp only [TokenKind.accepts]
        refine isInteger_cons.mpr ?_
        simp only [Bool.or_eq_true, Bool.and_eq_true, decide_eq_true_eq] at hinteger
        rcases hinteger with hu | ⟨hminus, hstart⟩
        · exact Or.inr ⟨hu, List.all_takeWhile⟩
        · refine Or.inl ⟨hminus, isDigits_iff.mpr ⟨?_, List.all_takeWhile⟩⟩
          cases t with
          | nil => simp [startsWithDigit] at hstart
          | cons v t =>
            have hv : v.isDigit := by simpa [startsWithDigit] using hstart
            simp [hv]
      · simp [TokenKind.endsBefore, head_dropWhile]
    · cases h
      refine ⟨t.dropWhile CodeUnit.isAlphanumeric, by simp, ?_, ?_⟩
      · exact isIdentifier_cons.mpr ⟨hletter, List.all_takeWhile⟩
      · simp [TokenKind.endsBefore, head_dropWhile]

theorem lexeme?_eq_some_iff {t w : Text} {kind : TokenKind} :
    t.lexeme? = some (kind, w) ↔
      ∃ rest, t = w ++ rest ∧ kind.accepts w ∧ kind.endsBefore rest := by
  constructor
  · exact exists_of_lexeme?
  · rintro ⟨rest, rfl, hw, hrest⟩
    exact lexeme?_append hw hrest

end Text

end Sprig
