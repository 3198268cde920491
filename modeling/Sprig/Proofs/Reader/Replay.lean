import Sprig.Proofs.Expr.Text
import Sprig.Proofs.Reader.Run

/-!
# Reading the same tokens again

Tokens that are read at another place of another text, with something else after them, take a
reader to where they took it before: positions count only in syntax errors.
-/

namespace Sprig

/-! ### Tokens at another place -/

namespace Token

variable {ts : List Token} {t : Token} {rest rest' : Text}

/-- The same tokens, the first one at a position and the others after it. -/
def placed (p : Nat) : List Token → List Token
  | [] => []
  | t :: ts => { t with position := p } :: placed (p + t.text.length) ts

@[simp] lemma texts_placed (p : Nat) (ts : List Token) : texts (placed p ts) = texts ts := by
  induction ts generalizing p with
  | nil => rfl
  | cons t ts ih => simp [placed, ih]

lemma placed_append (p : Nat) (ts ts' : List Token) :
    placed p (ts ++ ts') = placed p ts ++ placed (p + (texts ts).length) ts' := by
  induction ts generalizing p with
  | nil => simp [placed]
  | cons t ts ih => simp [placed, ih, Nat.add_assoc]

/-- What follows the tokens may be changed if the last one still ends there. -/
lemma AreRead.congr (h : AreRead (ts ++ [t]) rest) (hrest : t.kind.endsBefore rest') :
    AreRead (ts ++ [t]) rest' := by
  induction ts with
  | nil =>
    obtain ⟨hkind, haccepts, -, -⟩ := h
    exact ⟨hkind, haccepts, hrest, trivial⟩
  | cons u ts ih =>
    rw [List.cons_append] at h ⊢
    obtain ⟨hkind, haccepts, hends, h⟩ := h
    have hread := ih h
    refine ⟨hkind, haccepts, ?_, hread⟩
    -- There is a unit of the next token before what follows.
    obtain ⟨v, w, hw⟩ : ∃ v w, texts (ts ++ [t]) = v :: w := by
      have ht : t.text ≠ [] := by
        have hlast : AreRead [t] rest := (areRead_append.mp h).2
        exact Lexer.text_ne_nil_of_accepts hlast.1 hlast.2.1
      obtain ⟨v, w, hvw⟩ := List.exists_cons_of_ne_nil
        (show texts (ts ++ [t]) ≠ [] by simp [ht])
      exact ⟨v, w, hvw⟩
    rw [hw] at hends ⊢
    cases hu : u.kind <;> simp_all [TokenKind.endsBefore]

end Token

/-- Tokens that can be read are the first ones of a scan. -/
lemma Lexer.scan_texts {ts : List Token} {rest : Text} (p : Nat) (h : Token.AreRead ts rest) :
    (⟨p, Token.texts ts ++ rest⟩ : Lexer).scan =
      (⟨p + (Token.texts ts).length, rest⟩ : Lexer).scan.after (Token.placed p ts) := by
  induction ts generalizing p with
  | nil => simp [Token.placed]
  | cons t ts ih =>
    obtain ⟨hkind, haccepts, hends, h⟩ := h
    rw [Token.texts_cons, List.append_assoc, scan_append p hkind haccepts hends, ih _ h,
      Scan.after_after, List.length_append, Nat.add_assoc]
    rfl

/-! ### A reader at another place -/

/-- A stage that no token has been taken at that is not allowed there. -/
def Stage.isOpen : Stage → Bool
  | .extra .. => false
  | _ => true

namespace Reader

variable {limit : Nat} {r r' : Reader} {ts : List Token} {rest : Text}

lemma isOpen_of_feed {t : Token} (h : r.feed limit t = .ok r') : r.stage.isOpen := by
  cases hstage : r.stage <;> simp_all [Stage.isOpen, feed]

lemma enter_congr {t t' : Token} {env : Bindings} {frames : List Frame} (hkind : t'.kind = t.kind)
    (htext : t'.text = t.text) (h : enter limit env frames t = .ok r) :
    enter limit env frames t' = .ok r := by
  obtain ⟨hdepth, henters⟩ := enters_of_enter h
  have hdepth' : ¬ limit ≤ frames.length := by omega
  cases henters with
  | integer ht hvalue => simp [enter, hdepth', hkind, htext, ht, hvalue]
  | name ht => simp [enter, hdepth', hkind, htext, ht]
  | form ht => simp [enter, hdepth', hkind, ht]

/-- A token that is taken is taken at any place. -/
lemma feed_congr {t t' : Token} (hkind : t'.kind = t.kind) (htext : t'.text = t.text)
    (h : r.feed limit t = .ok r') (hopen : r'.stage.isOpen) : r.feed limit t' = .ok r' := by
  obtain ⟨stage, frames⟩ := r
  cases moves_of_feed h with
  | skip ht => simp [feed, hkind, ht]
  | first hdepth henters =>
    have hspace : t.kind ≠ .space := by cases henters <;> simp_all
    simp only [feed, hkind, hspace, if_false] at h ⊢
    exact enter_congr hkind htext h
  | expression => exact enter_congr hkind htext h
  | head ht => simp [feed, hkind, htext, ht]
  | operator ht => simp [feed, demand, hkind, ht]
  | letHead ht =>
    have hlet : Operator.ofName? letName = none := by decide
    simp [feed, demand, hkind, ht, hlet]
  | name ht => simp [feed, hkind, htext, ht]
  | body ht _ henters =>
    have hclose : t.kind ≠ .closeParen := by cases henters <;> simp_all
    simp only [feed, hkind, ht, hclose, if_false] at h ⊢
    exact enter_congr hkind htext h
  | bound ht => simp [feed, hkind, ht]
  | nameBody ht hdepth hvalue => simp [feed, hkind, ht, not_le.mpr hdepth, hvalue, Except.map]
  | finish ht => simp [feed, leave, hkind, ht, Except.bind]
  | left ht => simp [feed, leave, demand, hkind, ht, Except.bind]
  | right ht => simp [feed, leave, demand, hkind, ht, Except.bind]
  | extra => simp [Stage.isOpen] at hopen
  | bind ht => simp [feed, leave, demand, hkind, ht, Except.bind]
  | close ht => simp [feed, leave, demand, hkind, ht, Except.bind]

lemma feedAll_placed (p : Nat) (h : r.feedAll limit ts = .ok r') (hopen : r'.stage.isOpen) :
    r.feedAll limit (Token.placed p ts) = .ok r' := by
  induction ts generalizing r p with
  | nil => exact h
  | cons t ts ih =>
    obtain ⟨r₁, hfeed, hfeedAll⟩ := feedAll_cons_eq_ok_iff.mp h
    have hopen₁ : r₁.stage.isOpen := by
      cases ts with
      | nil =>
        cases hfeedAll
        exact hopen
      | cons u us =>
        obtain ⟨r₂, hu, -⟩ := feedAll_cons_eq_ok_iff.mp hfeedAll
        exact isOpen_of_feed hu
    have hfeed' : r.feed limit { t with position := p } = .ok r₁ :=
      feed_congr (t := t) rfl rfl hfeed hopen₁
    exact feedAll_cons_eq_ok_iff.mpr ⟨r₁, hfeed', ih (p + t.text.length) hfeedAll⟩

/-- Tokens that are taken are taken again where they are read again. -/
theorem run_texts (p : Nat) (h : r.feedAll limit ts = .ok r') (hopen : r'.stage.isOpen)
    (hread : Token.AreRead ts rest) :
    r.run limit ⟨p, Token.texts ts ++ rest⟩ =
      r'.run limit ⟨p + (Token.texts ts).length, rest⟩ := by
  rw [run, Lexer.scan_texts p hread, Scan.tokens_after, Scan.fault_after, feedAll_append,
    feedAll_placed p h hopen]
  rfl

end Reader

end Sprig
