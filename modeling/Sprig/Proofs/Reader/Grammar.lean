import Sprig.Proofs.Number.Literal
import Sprig.Proofs.Reader.Run

/-!
# What a reader has read

The units that a reader has taken are the beginning of an expression: for every form that is still
open they have its head and the parts that are complete, each spelled as `Expr.text` spells it,
with integers that are words and no more nesting than the limit leaves. After the whole text there
is nothing open, so what has been read is an expression.
-/

namespace Sprig

/-! ### Expressions at a depth -/

mutual

/-- Whether the integers of an expression are words. -/
def Expr.isInRange : Expr → Bool
  | .integer lexeme => IsWord lexeme.integerValue
  | .name _ => true
  | .operation _ left right => left.isInRange && right.isInRange
  | .letForm inside => inside.isInRange

/-- Whether the integers inside a `let` are words. -/
def LetTail.isInRange : LetTail → Bool
  | .body e => e.isInRange
  | .bind _ value rest => value.isInRange && rest.isInRange

end

/-- An expression that may stand inside a number of forms. -/
structure Expr.Fits (limit depth : Nat) (e : Expr) : Prop where
  isWellFormed : e.isWellFormed
  isInRange : e.isInRange
  nesting : e.nesting + depth ≤ limit

/-- The same for what stands inside a `let`. -/
structure LetTail.Fits (limit depth : Nat) (inside : LetTail) : Prop where
  isWellFormed : inside.isWellFormed
  isInRange : inside.isInRange
  nesting : inside.nesting + depth ≤ limit

section Fits

variable {limit depth : Nat} {w bound : Text} {op : Operator} {e left right value : Expr}
  {inside : LetTail}

lemma Expr.Fits.integer (hw : w.isInteger) (hword : IsWord w.integerValue)
    (hdepth : depth < limit) : (Expr.integer w).Fits limit depth where
  isWellFormed := by simpa only [Expr.isWellFormed] using hw
  isInRange := by simpa [Expr.isInRange] using hword
  nesting := by simp only [Expr.nesting]; omega

lemma Expr.Fits.name (hw : w.isIdentifier) (hdepth : depth < limit) :
    (Expr.name w).Fits limit depth where
  isWellFormed := by simpa only [Expr.isWellFormed] using hw
  isInRange := by simp [Expr.isInRange]
  nesting := by simp only [Expr.nesting]; omega

lemma Expr.Fits.operation (hleft : left.Fits limit (depth + 1))
    (hright : right.Fits limit (depth + 1)) : (operation op left right).Fits limit depth where
  isWellFormed := by simp [Expr.isWellFormed, hleft.isWellFormed, hright.isWellFormed]
  isInRange := by simp [Expr.isInRange, hleft.isInRange, hright.isInRange]
  nesting := by
    have := hleft.nesting
    have := hright.nesting
    simp only [Expr.nesting]
    omega

lemma Expr.Fits.letForm (h : inside.Fits limit (depth + 1)) :
    (Expr.letForm inside).Fits limit depth where
  isWellFormed := by simpa only [Expr.isWellFormed] using h.isWellFormed
  isInRange := by simpa only [Expr.isInRange] using h.isInRange
  nesting := by
    have := h.nesting
    simp only [Expr.nesting]
    omega

lemma LetTail.Fits.body (h : e.Fits limit depth) : (LetTail.body e).Fits limit depth where
  isWellFormed := by simpa only [LetTail.isWellFormed] using h.isWellFormed
  isInRange := by simpa only [LetTail.isInRange] using h.isInRange
  nesting := by simpa only [LetTail.nesting] using h.nesting

lemma LetTail.Fits.bind (hbound : bound.isIdentifier) (hvalue : value.Fits limit depth)
    (h : inside.Fits limit depth) : (LetTail.bind bound value inside).Fits limit depth where
  isWellFormed := by simp [LetTail.isWellFormed, hbound, hvalue.isWellFormed, h.isWellFormed]
  isInRange := by simp [LetTail.isInRange, hvalue.isInRange, h.isInRange]
  nesting := by
    have := hvalue.nesting
    have := h.nesting
    simp only [LetTail.nesting]
    omega

end Fits

/-- The text of bindings in a `let`, each with the space after its value. -/
inductive AreBindings (limit depth : Nat) : Text → Prop
  | nil : AreBindings limit depth []
  | snoc {bindings name : Text} {value : Expr} (h : AreBindings limit depth bindings)
    (hname : name.isIdentifier) (hvalue : value.Fits limit depth) :
    AreBindings limit depth
      (bindings ++ name ++ [CodeUnit.space] ++ value.text ++ [CodeUnit.space])

/-- Bindings go before whatever may stand inside a `let`. -/
lemma AreBindings.exists_append {limit depth : Nat} {bindings : Text} {tail : LetTail}
    (h : AreBindings limit depth bindings) (htail : tail.Fits limit depth) :
    ∃ inside : LetTail, inside.Fits limit depth ∧ inside.text = bindings ++ tail.text := by
  induction h generalizing tail with
  | nil => exact ⟨tail, htail, rfl⟩
  | @snoc bindings name value h hname hvalue ih =>
    obtain ⟨inside, hinside, htext⟩ := ih (.bind hname hvalue htail)
    exact ⟨inside, hinside, by simp [htext, LetTail.text]⟩

namespace Reader

/-! ### Open forms -/

/-- What has been read of the open forms, up to the part that is being read. -/
inductive Opened (limit : Nat) : List Frame → Text → Prop
  | nil : Opened limit [] []
  | left {op env frames text} (h : Opened limit frames text) :
    Opened limit (.left op env :: frames)
      (text ++ [CodeUnit.openParen] ++ op.name ++ [CodeUnit.space])
  | right {op value frames text} {e : Expr} (h : Opened limit frames text)
    (he : e.Fits limit (frames.length + 1)) :
    Opened limit (.right op value :: frames)
      (text ++ [CodeUnit.openParen] ++ op.name ++ [CodeUnit.space] ++ e.text ++ [CodeUnit.space])
  | binding {env frames text bindings} {name : Text} (h : Opened limit frames text)
    (hbindings : AreBindings limit (frames.length + 1) bindings) (hname : name.isIdentifier) :
    Opened limit (.binding env name :: frames)
      (text ++ [CodeUnit.openParen] ++ letName ++ [CodeUnit.space] ++ bindings ++ name ++
        [CodeUnit.space])
  | body {frames text bindings} (h : Opened limit frames text)
    (hbindings : AreBindings limit (frames.length + 1) bindings) :
    Opened limit (.body :: frames)
      (text ++ [CodeUnit.openParen] ++ letName ++ [CodeUnit.space] ++ bindings)

/-- What a reader has read, a space before the whole expression apart. -/
inductive Spells (limit : Nat) : Reader → Text → Prop
  | expression {env frames text} (h : Opened limit frames text) :
    Spells limit ⟨.expression env, frames⟩ text
  | head {env frames text} (h : Opened limit frames text) :
    Spells limit ⟨.head env, frames⟩ (text ++ [CodeUnit.openParen])
  | word {env word frames text} (h : Opened limit frames text) :
    Spells limit ⟨.word env word, frames⟩ (text ++ [CodeUnit.openParen] ++ word)
  | inside {env frames text bindings} (h : Opened limit frames text)
    (hbindings : AreBindings limit (frames.length + 1) bindings) :
    Spells limit ⟨.inside env, frames⟩
      (text ++ [CodeUnit.openParen] ++ letName ++ [CodeUnit.space] ++ bindings)
  | name {env frames text bindings} {name : Text} (h : Opened limit frames text)
    (hbindings : AreBindings limit (frames.length + 1) bindings) (hname : name.isIdentifier) :
    Spells limit ⟨.name env name, frames⟩
      (text ++ [CodeUnit.openParen] ++ letName ++ [CodeUnit.space] ++ bindings ++ name)
  | value {result frames text} {e : Expr} (h : Opened limit frames text)
    (he : e.Fits limit frames.length) : Spells limit ⟨.value result, frames⟩ (text ++ e.text)
  | extra {op space frames text} : Spells limit ⟨.extra op space, frames⟩ text

/-! ### One token more -/

variable {limit : Nat} {r r' : Reader} {env : Bindings} {frames : List Frame} {text : Text}
  {t : Token}

lemma Spells.of_enters (h : Opened limit frames text) (hdepth : frames.length < limit)
    (haccepts : t.kind.accepts t.text) (henters : Enters limit env frames t r) :
    Spells limit r (text ++ t.text) := by
  cases henters with
  | @integer value hkind hvalue =>
    have hw := t.isInteger_text haccepts hkind
    have hword : IsWord t.text.integerValue := by
      by_contra hword
      simp [Word.ofText?_of_isInteger hw, hword] at hvalue
    have hspells : Spells limit ⟨.value (.ok value), frames⟩ (text ++ (Expr.integer t.text).text) :=
      .value h (.integer hw hword hdepth)
    simpa only [Expr.text] using hspells
  | name hkind =>
    have hw := t.isIdentifier_text haccepts hkind
    have hspells : Spells limit ⟨.value (env.find t.text), frames⟩
        (text ++ (Expr.name t.text).text) := .value h (.name hw hdepth)
    simpa only [Expr.text] using hspells
  | form hkind =>
    rw [t.text_eq_openParen haccepts hkind]
    exact .head h

/-- A form that closes is an expression where it started. -/
lemma Spells.of_letForm {bindings : Text} {e : Expr} {result : Except Error Int}
    (h : Opened limit frames text) (hbindings : AreBindings limit (frames.length + 1) bindings)
    (he : e.Fits limit (frames.length + 1)) :
    Spells limit ⟨.value result, frames⟩
      (text ++ [CodeUnit.openParen] ++ letName ++ [CodeUnit.space] ++ bindings ++ e.text ++
        [CodeUnit.closeParen]) := by
  obtain ⟨inside, hinside, htext⟩ := hbindings.exists_append (LetTail.Fits.body he)
  have hspells : Spells limit ⟨.value result, frames⟩ (text ++ (Expr.letForm inside).text) :=
    .value h (.letForm hinside)
  simpa [Expr.text, htext, LetTail.text] using hspells

theorem Spells.of_moves (haccepts : t.kind.accepts t.text) (hmoves : Moves limit r t r')
    (h : Spells limit r text) : Spells limit r' (text ++ t.text) := by
  cases hmoves with
  | skip => cases h
  | first => cases h
  | expression hdepth henters =>
    cases h with
    | expression h => exact .of_enters h hdepth haccepts henters
  | head =>
    cases h with
    | head h => exact .word h
  | operator hkind =>
    cases h with
    | word h =>
      rw [t.text_eq_space haccepts hkind]
      exact .expression (.left h)
  | letHead hkind =>
    cases h with
    | word h =>
      rw [t.text_eq_space haccepts hkind, ← List.append_nil (_ ++ [CodeUnit.space])]
      exact .inside h .nil
  | name hkind =>
    cases h with
    | inside h hbindings => exact .name h hbindings (t.isIdentifier_text haccepts hkind)
  | body _ hdepth henters =>
    cases h with
    | inside h hbindings => exact .of_enters (.body h hbindings) hdepth haccepts henters
  | bound hkind =>
    cases h with
    | name h hbindings hname =>
      rw [t.text_eq_space haccepts hkind]
      exact .expression (.binding h hbindings hname)
  | @nameBody env name frames t value hkind hdepth _ =>
    cases h with
    | name h hbindings hname =>
      rw [t.text_eq_closeParen haccepts hkind]
      have hspells : Spells limit ⟨.value (.ok value), frames⟩ _ :=
        .of_letForm h hbindings (.name hname hdepth)
      simpa only [Expr.text] using hspells
  | finish hkind =>
    rw [t.text_eq_nil haccepts hkind, List.append_nil]
    exact h
  | left hkind =>
    cases h with
    | value h he =>
      cases h with
      | left h =>
        rw [t.text_eq_space haccepts hkind]
        exact .expression (.right h he)
  | @right value left op frames t hkind =>
    cases h with
    | value h he =>
      cases h with
      | @right _ _ _ text e₁ h he₁ =>
        rw [t.text_eq_closeParen haccepts hkind]
        have hspells : Spells limit ⟨.value (.ok (op.apply left value)), frames⟩
            (text ++ (Expr.operation op e₁ _).text) := .value h (.operation he₁ he)
        simpa [Expr.text] using hspells
  | extra => exact .extra
  | bind hkind =>
    cases h with
    | value h he =>
      cases h with
      | binding h hbindings hname =>
        rw [t.text_eq_space haccepts hkind]
        simpa using Spells.inside h (.snoc hbindings hname he)
  | close hkind =>
    cases h with
    | value h he =>
      cases h with
      | body h hbindings =>
        rw [t.text_eq_closeParen haccepts hkind]
        exact .of_letForm h hbindings he

/-! ### All tokens -/

/-- What has been read of a whole expression before its first token is nothing. -/
theorem spells_of_feedAll {ts : List Token} (haccepts : ∀ t ∈ ts, t.kind.accepts t.text)
    (h : feedAll limit ⟨.expression [], []⟩ ts = .ok r) : Spells limit r (Token.texts ts) := by
  refine feedAll_induction (motive := fun r ts => Spells limit r (Token.texts ts)) ?_
    (.expression .nil) h
  intro r₁ r₂ taken t ht hmoves hspells
  rw [Token.texts_append, Token.texts_cons, Token.texts_nil, List.append_nil]
  exact hspells.of_moves (haccepts t ht) hmoves

end Reader

end Sprig
