import Sprig.Proofs.Reader.Run
import Sprig.Session.Basic

/-!
# Open forms and open parentheses

A reader is inside as many forms as parentheses are open in what it has taken: each has a frame,
apart from the innermost one at the stages before the first part of a form and between its parts.
-/

namespace Sprig

/-! ### Counting parentheses -/

namespace Text

@[simp] lemma openDepth_nil : openDepth [] = 0 := rfl

@[simp] lemma openDepth_append (t t' : Text) :
    openDepth (t ++ t') = t.openDepth + t'.openDepth := by
  simp only [openDepth, List.count_append]
  omega

lemma openDepth_of_isAlphanumeric {t : Text}
    (h : ∀ u ∈ t, u = CodeUnit.minus ∨ u.isAlphanumeric) : t.openDepth = 0 := by
  have hopen : t.count CodeUnit.openParen = 0 := by
    refine List.count_eq_zero.mpr fun hmem => ?_
    exact absurd (h _ hmem) (by decide)
  have hclose : t.count CodeUnit.closeParen = 0 := by
    refine List.count_eq_zero.mpr fun hmem => ?_
    exact absurd (h _ hmem) (by decide)
  simp [openDepth, hopen, hclose]

end Text

/-- By how much a token of a kind changes the number of open parentheses. -/
def TokenKind.openDepth : TokenKind → Int
  | .openParen => 1
  | .closeParen => -1
  | .identifier | .integer | .space | .endOfFile => 0

lemma Token.openDepth_text {t : Token} (haccepts : t.kind.accepts t.text) :
    t.text.openDepth = t.kind.openDepth := by
  cases hkind : t.kind with
  | openParen =>
    rw [text_eq_openParen haccepts hkind]
    rfl
  | closeParen =>
    rw [text_eq_closeParen haccepts hkind]
    rfl
  | space =>
    rw [text_eq_space haccepts hkind]
    rfl
  | endOfFile =>
    rw [text_eq_nil haccepts hkind]
    rfl
  | identifier =>
    exact Text.openDepth_of_isAlphanumeric fun u hu =>
      Or.inr (Text.isAlphanumeric_of_isIdentifier (isIdentifier_text haccepts hkind) u hu)
  | integer =>
    exact Text.openDepth_of_isAlphanumeric
      (Text.isAlphanumeric_of_isInteger (isInteger_text haccepts hkind))

/-! ### Forms around a reader -/

/-- Whether the innermost form has no frame at a stage. -/
def Stage.isBetween : Stage → Bool
  | .head _ | .word .. | .inside _ | .name .. | .extra .. => true
  | .start | .expression _ | .value _ => false

namespace Reader

variable {limit : Nat} {r r' : Reader} {env : Bindings} {frames : List Frame} {ts : List Token}
  {t : Token}

/-- The number of forms that a reader is inside. -/
def depth (r : Reader) : Nat := r.frames.length + if r.stage.isBetween then 1 else 0

lemma depth_of_enters (h : Enters limit env frames t r) :
    (r.depth : Int) = frames.length + t.kind.openDepth := by
  cases h with
  | integer hkind => simp [depth, Stage.isBetween, hkind, TokenKind.openDepth]
  | name hkind => simp [depth, Stage.isBetween, hkind, TokenKind.openDepth]
  | form hkind => simp [depth, Stage.isBetween, hkind, TokenKind.openDepth]

theorem depth_of_moves (h : Moves limit r t r') :
    (r'.depth : Int) = r.depth + t.kind.openDepth := by
  cases h with
  | first _ henters => simpa [depth, Stage.isBetween] using depth_of_enters henters
  | expression _ henters => simpa [depth, Stage.isBetween] using depth_of_enters henters
  | body _ _ henters => simpa [depth, Stage.isBetween] using depth_of_enters henters
  | nameBody hkind | right hkind | close hkind =>
    simp only [depth, Stage.isBetween, TokenKind.openDepth, hkind, List.length_cons, if_true,
      Bool.false_eq_true, if_false]
    omega
  | skip hkind | head hkind | operator hkind | letHead hkind | name hkind | bound hkind
  | finish hkind | left hkind | extra hkind | bind hkind =>
    simp [depth, Stage.isBetween, TokenKind.openDepth, hkind]

/-- Only the space before a whole expression is taken outside of all forms. -/
lemma Moves.depth_pos_of_space (h : Moves limit r t r') (hkind : t.kind = .space) :
    r.stage = .start ∨ 0 < r.depth := by
  cases h with
  | skip => exact Or.inl rfl
  | first _ henters | expression _ henters | body _ _ henters => cases henters <;> simp_all
  | operator | letHead | bound => exact Or.inr (by simp [depth, Stage.isBetween])
  | left | extra | bind =>
    refine Or.inr ?_
    simp only [depth, List.length_cons]
    omega
  | _ => simp_all

/-- As many parentheses are opened in what a reader takes as it goes deeper. -/
theorem openDepth_texts_of_feedAll (haccepts : ∀ t ∈ ts, t.kind.accepts t.text)
    (h : r.feedAll limit ts = .ok r') : r.depth + (Token.texts ts).openDepth = r'.depth := by
  refine feedAll_induction
    (motive := fun r' ts => r.depth + (Token.texts ts).openDepth = r'.depth) ?_ (by simp) h
  intro r₁ r₂ taken t ht hmoves hdepth
  rw [Token.texts_append, Text.openDepth_append, ← Int.add_assoc, hdepth, depth_of_moves hmoves]
  simp [Token.openDepth_text (haccepts t ht)]

end Reader

end Sprig
