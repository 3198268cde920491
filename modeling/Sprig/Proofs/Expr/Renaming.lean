import Mathlib.Logic.Equiv.Basic
import Sprig.Proofs.Expr.Evaluation

/-!
# Renaming

A map of names renames the variables of an expression and the names that it binds. The words at the
heads of its forms are no names and stay. If different names become different ones, the evaluation
comes to the same value or fails in the same way, at a place that the lengths of the names may move:
nothing looks at how a name is spelled, so a variable may be called like an operator.

The comparison is made with more nesting allowed to the second evaluation, for it is the same
induction: then the outcomes correspond unless the first one is that the nesting is too deep.
-/

namespace Sprig

variable {names : Text → Text}

/-! ### Renamed expressions -/

mutual

/-- Renames the variables of an expression and the names that it binds. -/
def Expr.rename (names : Text → Text) : Expr → Expr
  | .integer lexeme => .integer lexeme
  | .name name => .name (names name)
  | .operation op left right => .operation op (left.rename names) (right.rename names)
  | .letForm inside => .letForm (inside.rename names)

/-- Renames what stands inside a `let`. -/
def LetTail.rename (names : Text → Text) : LetTail → LetTail
  | .body e => .body (e.rename names)
  | .bind name value rest => .bind (names name) (value.rename names) (rest.rename names)

end

namespace Expr

@[simp] lemma rename_integer (w : Text) : (integer w).rename names = integer w := by
  simp [rename]

@[simp] lemma rename_name (w : Text) : (name w).rename names = name (names w) := by
  simp [rename]

@[simp] lemma rename_operation (op : Operator) (left right : Expr) :
    (operation op left right).rename names =
      operation op (left.rename names) (right.rename names) := by
  simp [rename]

@[simp] lemma rename_letForm (inside : LetTail) :
    (letForm inside).rename names = letForm (inside.rename names) := by
  simp [rename]

end Expr

namespace LetTail

@[simp] lemma rename_body (e : Expr) : (body e).rename names = body (e.rename names) := by
  simp [rename]

@[simp] lemma rename_bind (name : Text) (value : Expr) (rest : LetTail) :
    (bind name value rest).rename names =
      bind (names name) (value.rename names) (rest.rename names) := by
  simp [rename]

end LetTail

mutual

@[simp] theorem Expr.rename_id (e : Expr) : e.rename id = e := by
  match e with
  | .integer w => simp
  | .name w => simp
  | .operation op left right => simp [left.rename_id, right.rename_id]
  | .letForm inside => simp [inside.rename_id]

@[simp] theorem LetTail.rename_id (inside : LetTail) : inside.rename id = inside := by
  match inside with
  | .body e => simp [e.rename_id]
  | .bind name value rest => simp [value.rename_id, rest.rename_id]

end

/-- A map that takes identifiers to identifiers, and different ones to different ones. -/
structure IsRenaming (names : Text → Text) : Prop where
  isIdentifier : ∀ w : Text, w.isIdentifier → (names w).isIdentifier
  injOn : Set.InjOn names {w | w.isIdentifier}

lemma isRenaming_id : IsRenaming id := ⟨fun _ h => h, Set.injOn_id _⟩

lemma IsRenaming.comp {names' : Text → Text} (h : IsRenaming names) (h' : IsRenaming names') :
    IsRenaming (names ∘ names') where
  isIdentifier w hw := h.isIdentifier _ (h'.isIdentifier w hw)
  injOn := h.injOn.comp h'.injOn fun w hw => h'.isIdentifier w hw

/-- Two identifiers may trade places. -/
lemma isRenaming_swap {v w : Text} (hv : v.isIdentifier) (hw : w.isIdentifier) :
    IsRenaming (Equiv.swap v w) where
  isIdentifier u hu := by
    rw [Equiv.swap_apply_def]
    split_ifs
    · exact hw
    · exact hv
    · exact hu
  injOn := (Equiv.injective _).injOn

mutual

theorem Expr.isWellFormed_rename (hnames : IsRenaming names) (e : Expr) (he : e.isWellFormed) :
    (e.rename names).isWellFormed := by
  match e with
  | .integer w => simpa [Expr.isWellFormed] using he
  | .name w =>
    have hw : w.isIdentifier := by simpa only [Expr.isWellFormed] using he
    simpa [Expr.isWellFormed] using hnames.isIdentifier w hw
  | .operation op left right =>
    obtain ⟨hleft, hright⟩ : left.isWellFormed ∧ right.isWellFormed := by
      simpa [Expr.isWellFormed] using he
    simp [Expr.isWellFormed, left.isWellFormed_rename hnames hleft,
      right.isWellFormed_rename hnames hright]
  | .letForm inside =>
    have hi : inside.isWellFormed := by simpa only [Expr.isWellFormed] using he
    simpa [Expr.isWellFormed] using inside.isWellFormed_rename hnames hi

theorem LetTail.isWellFormed_rename (hnames : IsRenaming names) (inside : LetTail)
    (hi : inside.isWellFormed) : (inside.rename names).isWellFormed := by
  match inside with
  | .body e =>
    have he : e.isWellFormed := by simpa only [LetTail.isWellFormed] using hi
    simpa [LetTail.isWellFormed] using e.isWellFormed_rename hnames he
  | .bind name value rest =>
    obtain ⟨⟨hname, hvalue⟩, hrest⟩ :
        (name.isIdentifier ∧ value.isWellFormed) ∧ rest.isWellFormed := by
      simpa [LetTail.isWellFormed] using hi
    simp [LetTail.isWellFormed, hnames.isIdentifier name hname,
      value.isWellFormed_rename hnames hvalue, rest.isWellFormed_rename hnames hrest]

end

/-! ### Outcomes that correspond -/

/-- Outcomes of two evaluations that differ in names and places only. -/
inductive Corresponds (names : Text → Text) : Except Error Int → Except Error Int → Prop
  | value (n : Int) : Corresponds names (.ok n) (.ok n)
  | unboundName (name : Text) :
    Corresponds names (.error (.unboundName name)) (.error (.unboundName (names name)))
  | literalOutOfRange (literal : Text) (p p' : Nat) :
    Corresponds names (.error (.malformed (.literalOutOfRange ⟨.integer, literal, p⟩)))
      (.error (.malformed (.literalOutOfRange ⟨.integer, literal, p'⟩)))
  | tooDeep (limit : Int) :
    Corresponds names (.error (.tooDeep limit)) (.error (.tooDeep limit))

/-- The outcomes correspond, or the first evaluation is stopped by the limit, which the second one
may come to later. -/
def CorrespondsUpTo (limit : Nat) (names : Text → Text) (later : Prop)
    (outcome outcome' : Except Error Int) : Prop :=
  (later ∧ outcome = .error (.tooDeep limit)) ∨ Corresponds names outcome outcome'

section Outcomes

variable {limit : Nat} {later : Prop} {outcome outcome' : Except Error Int}
  {next next' : Int → Except Error Int}

lemma CorrespondsUpTo.bind (h : CorrespondsUpTo limit names later outcome outcome')
    (hnext : ∀ n, CorrespondsUpTo limit names later (next n) (next' n)) :
    CorrespondsUpTo limit names later (outcome.bind next) (outcome'.bind next') := by
  obtain ⟨hlater, rfl⟩ | h := h
  · exact Or.inl ⟨hlater, rfl⟩
  · cases h with
    | value n => exact hnext n
    | unboundName name => exact Or.inr (.unboundName name)
    | literalOutOfRange literal p p' => exact Or.inr (.literalOutOfRange literal p p')
    | tooDeep n => exact Or.inr (.tooDeep n)

lemma CorrespondsUpTo.mono {later' : Prop} (h : CorrespondsUpTo limit names later outcome outcome')
    (hlater : later → later') : CorrespondsUpTo limit names later' outcome outcome' :=
  h.imp_left fun hstopped => ⟨hlater hstopped.1, hstopped.2⟩

lemma CorrespondsUpTo.corresponds (h : CorrespondsUpTo limit names later outcome outcome')
    (hdepth : later → outcome ≠ .error (.tooDeep limit)) :
    Corresponds names outcome outcome' := by
  obtain ⟨hlater, hstopped⟩ | h := h
  · exact absurd hstopped (hdepth hlater)
  · exact h

end Outcomes

/-! ### Bindings -/

/-- Bindings that answer for renamed names like others for the names. -/
def Bindings.Renames (names : Text → Text) (env env' : Bindings) : Prop :=
  ∀ w : Text, w.isIdentifier → env'.lookup (names w) = env.lookup w

namespace Bindings.Renames

variable {env env' : Bindings} {w : Text}

/-- A name hides what its new name hides, since no other name becomes that one. -/
lemma cons (h : env.Renames names env') (hnames : IsRenaming names) (hw : w.isIdentifier)
    (n : Int) : Bindings.Renames names ((w, n) :: env) ((names w, n) :: env') := by
  intro v hv
  rw [List.lookup_cons, List.lookup_cons]
  by_cases hvw : v = w
  · subst hvw
    simp
  · have hne : names v ≠ names w := fun heq => hvw (hnames.injOn hv hw heq)
    rw [beq_eq_false_iff_ne.mpr hvw, beq_eq_false_iff_ne.mpr hne]
    exact h v hv

lemma corresponds (h : env.Renames names env') (hw : w.isIdentifier) :
    Corresponds names (env.find w) (env'.find (names w)) := by
  rw [Bindings.find, Bindings.find, h w hw]
  cases env.lookup w with
  | some n => exact .value n
  | none => exact .unboundName w

end Bindings.Renames

/-! ### Values -/

section Values

variable (limit : Nat)

mutual

/-- A renamed expression has the outcome of the expression, also if more nesting is allowed to it,
unless the expression is nested too deep for less. -/
theorem Expr.value_rename (hnames : IsRenaming names) (e : Expr) (he : e.isWellFormed)
    {allowance allowance' : Nat} (hle : allowance ≤ allowance') {env env' : Bindings}
    (henv : env.Renames names env') (p p' : Nat) :
    CorrespondsUpTo limit names (allowance < allowance') (e.value limit allowance env p)
      ((e.rename names).value limit allowance' env' p') := by
  by_cases ha : allowance = 0
  · subst ha
    rw [Expr.value_zero]
    rcases Nat.eq_zero_or_pos allowance' with rfl | ha'
    · rw [Expr.value_zero]
      exact Or.inr (.tooDeep limit)
    · exact Or.inl ⟨ha', rfl⟩
  have ha' : allowance' ≠ 0 := by omega
  have hless : allowance - 1 ≤ allowance' - 1 := by omega
  have hlater : (allowance - 1 < allowance' - 1) = (allowance < allowance') := by
    rw [eq_iff_iff]
    omega
  match e with
  | .integer w =>
    rw [Expr.rename_integer, Expr.value_integer limit env p ha,
      Expr.value_integer limit env' p' ha']
    split_ifs with hword
    · exact Or.inr (.value _)
    · exact Or.inr (.literalOutOfRange w p p')
  | .name w =>
    have hw : w.isIdentifier := by simpa only [Expr.isWellFormed] using he
    rw [Expr.rename_name, Expr.value_name limit env p ha, Expr.value_name limit env' p' ha']
    exact Or.inr (henv.corresponds hw)
  | .operation op left right =>
    obtain ⟨hleft, hright⟩ : left.isWellFormed ∧ right.isWellFormed := by
      simpa [Expr.isWellFormed] using he
    rw [Expr.rename_operation, Expr.value_operation limit env p ha,
      Expr.value_operation limit env' p' ha', ← hlater]
    refine (left.value_rename hnames hleft hless henv _ _).bind fun m => ?_
    refine (right.value_rename hnames hright hless henv _ _).bind fun n => ?_
    exact Or.inr (.value _)
  | .letForm inside =>
    have hi : inside.isWellFormed := by simpa only [Expr.isWellFormed] using he
    rw [Expr.rename_letForm, Expr.value_letForm limit env p ha,
      Expr.value_letForm limit env' p' ha', ← hlater]
    exact inside.value_rename hnames hi hless henv _ _

/-- The same for what stands inside a `let`. -/
theorem LetTail.value_rename (hnames : IsRenaming names) (inside : LetTail)
    (hi : inside.isWellFormed) {allowance allowance' : Nat} (hle : allowance ≤ allowance')
    {env env' : Bindings} (henv : env.Renames names env') (p p' : Nat) :
    CorrespondsUpTo limit names (allowance < allowance') (inside.value limit allowance env p)
      ((inside.rename names).value limit allowance' env' p') := by
  match inside with
  | .body e =>
    have he : e.isWellFormed := by simpa only [LetTail.isWellFormed] using hi
    rw [LetTail.rename_body, LetTail.value_body, LetTail.value_body]
    exact e.value_rename hnames he hle henv p p'
  | .bind name value rest =>
    obtain ⟨⟨hname, hvalue⟩, hrest⟩ :
        (name.isIdentifier ∧ value.isWellFormed) ∧ rest.isWellFormed := by
      simpa [LetTail.isWellFormed] using hi
    rw [LetTail.rename_bind, LetTail.value_bind, LetTail.value_bind]
    refine (value.value_rename hnames hvalue hle henv _ _).bind fun n => ?_
    exact rest.value_rename hnames hrest hle (henv.cons hnames hname n) _ _

end

end Values

/-! ### Texts -/

/-- Evaluating the text of a renamed expression gives the outcome of the expression: the same value,
the new name of an unbound one, the same literal that is no word, or the same limit of nesting. -/
theorem evaluate_rename (limit : Nat) (hnames : IsRenaming names) {e : Expr}
    (he : e.isWellFormed) :
    Corresponds names (evaluate limit e.text) (evaluate limit (e.rename names).text) := by
  rw [evaluate_text_eq_value limit he,
    evaluate_text_eq_value limit (e.isWellFormed_rename hnames he)]
  have hempty : Bindings.Renames names [] [] := fun _ _ => rfl
  have hvalue := e.value_rename limit hnames he (le_refl limit) hempty 0 0
  exact hvalue.corresponds fun hlater => absurd hlater (lt_irrefl limit)

/-- Variables may be called like the words at the heads of forms. -/
theorem evaluate_rename_heads :
    ∃ names : Text → Text, IsRenaming names ∧ names "y" = "add" ∧
      evaluate 3 "(let x 2 (add x y))" = .error (.unboundName "y") ∧
      evaluate 3 "(let let 2 (add let add))" = .error (.unboundName "add") := by
  have hlet : IsRenaming (Equiv.swap ("x" : Text) "let") := isRenaming_swap (by decide) (by decide)
  have hadd : IsRenaming (Equiv.swap ("y" : Text) "add") := isRenaming_swap (by decide) (by decide)
  obtain ⟨names, hnames, hy, e, he, htext, htext'⟩ : ∃ names : Text → Text, IsRenaming names ∧
      names "y" = "add" ∧ ∃ e : Expr, e.isWellFormed ∧ e.text = "(let x 2 (add x y))" ∧
        (e.rename names).text = "(let let 2 (add let add))" :=
    ⟨_, hlet.comp hadd, by decide +kernel,
      .letForm (.bind "x" (.integer "2") (.body (.operation .add (.name "x") (.name "y")))),
      by decide, by decide, by decide +kernel⟩
  have hunbound : evaluate 3 "(let x 2 (add x y))" = .error (.unboundName "y") := by
    decide +kernel
  have hrename := evaluate_rename 3 hnames he
  rw [htext, htext', hunbound] at hrename
  refine ⟨names, hnames, hy, hunbound, ?_⟩
  generalize evaluate 3 "(let let 2 (add let add))" = outcome at hrename ⊢
  cases hrename with
  | unboundName => rw [hy]

end Sprig
