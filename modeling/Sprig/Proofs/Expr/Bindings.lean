import Sprig.Proofs.Expr.Renaming

/-!
# Several bindings in one `let`

A `let` that binds several names binds them one after the other in one scope, so a later binding of
a name overwrites an earlier one. Nested in each other, `let` forms with one binding each have a
scope for every binding, and a later one hides an earlier one. Both come to the same outcome. But
the nested forms are nested deeper, so the limit may stop them alone.
-/

namespace Sprig

/-- What stands inside a `let` that binds names one after the other. -/
def LetTail.ofList (bindings : List (Text × Expr)) (body : Expr) : LetTail :=
  match bindings with
  | [] => .body body
  | (bound, value) :: rest => .bind bound value (ofList rest body)

/-- A `let` for every binding, each one the body of the `let` before it. -/
def Expr.nestedLets (bindings : List (Text × Expr)) (body : Expr) : Expr :=
  match bindings with
  | [] => body
  | (bound, value) :: rest => .letForm (.bind bound value (.body (nestedLets rest body)))

/-- Bindings of identifiers to the values of expressions. -/
def AreBindable (bindings : List (Text × Expr)) : Prop :=
  ∀ b ∈ bindings, b.1.isIdentifier ∧ b.2.isWellFormed

section Lets

variable {limit allowance allowance' : Nat} {bindings : List (Text × Expr)} {body : Expr}

lemma LetTail.isWellFormed_ofList (hbindings : AreBindable bindings) (hbody : body.isWellFormed) :
    (LetTail.ofList bindings body).isWellFormed := by
  induction bindings with
  | nil => simpa [ofList, isWellFormed] using hbody
  | cons b rest ih =>
    obtain ⟨⟨hname, hvalue⟩, hrest⟩ := List.forall_mem_cons.mp hbindings
    simp [ofList, isWellFormed, hname, hvalue, ih hrest]

lemma Expr.isWellFormed_nestedLets (hbindings : AreBindable bindings)
    (hbody : body.isWellFormed) : (nestedLets bindings body).isWellFormed := by
  induction bindings with
  | nil => simpa [nestedLets] using hbody
  | cons b rest ih =>
    obtain ⟨⟨hname, hvalue⟩, hrest⟩ := List.forall_mem_cons.mp hbindings
    simp [nestedLets, isWellFormed, LetTail.isWellFormed, hname, hvalue, ih hrest]

/-- With as much nesting allowed at least, an expression has the same outcome at any place. -/
lemma Expr.value_congr {e : Expr} (he : e.isWellFormed) (hle : allowance ≤ allowance')
    (env : Bindings) (p p' : Nat) :
    CorrespondsUpTo limit id True (e.value limit allowance env p)
      (e.value limit allowance' env p') := by
  have henv : Bindings.Renames id env env := fun _ _ => rfl
  have hvalue := e.value_rename limit isRenaming_id he hle henv p p'
  rw [Expr.rename_id] at hvalue
  exact hvalue.mono fun _ => trivial

/-- The rest of the bindings may stand in forms of their own, if these are allowed less nesting. -/
lemma LetTail.value_ofList (hbindings : AreBindable bindings) (hbody : body.isWellFormed)
    (hle : allowance ≤ allowance') (env : Bindings) (p p' : Nat) :
    CorrespondsUpTo limit id True
      ((LetTail.body (Expr.nestedLets bindings body)).value limit allowance env p)
      ((LetTail.ofList bindings body).value limit allowance' env p') := by
  rw [LetTail.value_body]
  induction bindings generalizing allowance env p p' with
  | nil =>
    rw [Expr.nestedLets, ofList, LetTail.value_body]
    exact Expr.value_congr hbody hle env p p'
  | cons b rest ih =>
    obtain ⟨⟨hname, hvalue⟩, hrest⟩ := List.forall_mem_cons.mp hbindings
    rw [Expr.nestedLets, ofList]
    by_cases ha : allowance = 0
    · rw [ha, Expr.value_zero]
      exact Or.inl ⟨trivial, rfl⟩
    have hless : allowance - 1 ≤ allowance' := by omega
    rw [Expr.value_letForm limit env p ha, LetTail.value_bind, LetTail.value_bind]
    refine (Expr.value_congr hvalue hless env _ _).bind fun n => ?_
    rw [LetTail.value_body]
    exact ih hrest hless _ _ _

/-- A `let` with several bindings has the outcome of nested ones with one binding each, unless these
are nested too deep: the same value, the same unbound name, or the same literal that is no word. -/
theorem evaluate_nestedLets (hne : bindings ≠ []) (hbindings : AreBindable bindings)
    (hbody : body.isWellFormed)
    (hdepth : ∀ n, evaluate limit (Expr.nestedLets bindings body).text ≠ .error (.tooDeep n)) :
    Corresponds id (evaluate limit (Expr.nestedLets bindings body).text)
      (evaluate limit (Expr.letForm (LetTail.ofList bindings body)).text) := by
  have hjoined : (Expr.letForm (LetTail.ofList bindings body)).isWellFormed := by
    simpa only [Expr.isWellFormed] using LetTail.isWellFormed_ofList hbindings hbody
  rw [evaluate_text_eq_value limit (Expr.isWellFormed_nestedLets hbindings hbody)] at hdepth ⊢
  rw [evaluate_text_eq_value limit hjoined]
  have hlimit : limit ≠ 0 := by
    rintro rfl
    exact hdepth _ (Expr.value_zero _ _ _ _)
  -- the first `let` is there in both
  obtain ⟨⟨name, value⟩, rest, rfl⟩ := List.exists_cons_of_ne_nil hne
  obtain ⟨⟨-, hvalue⟩, hrest⟩ := List.forall_mem_cons.mp hbindings
  have hrefines : CorrespondsUpTo limit id True
      ((Expr.nestedLets ((name, value) :: rest) body).value limit limit [] 0)
      ((Expr.letForm (LetTail.ofList ((name, value) :: rest) body)).value limit limit [] 0) := by
    rw [Expr.nestedLets, LetTail.ofList, Expr.value_letForm limit [] 0 hlimit,
      Expr.value_letForm limit [] 0 hlimit, LetTail.value_bind, LetTail.value_bind]
    refine (Expr.value_congr hvalue le_rfl [] _ _).bind fun n => ?_
    exact LetTail.value_ofList hrest hbody le_rfl _ _ _
  exact hrefines.corresponds fun _ => hdepth _

/-- A name that is bound to twice its value. -/
theorem evaluate_nestedLets_twice :
    evaluate 4 "(let x 2 (let x (add x x) (mult x x)))" = .ok 16 ∧
    evaluate 4 "(let x 2 x (add x x) (mult x x))" = .ok 16 := by
  obtain ⟨bindings, body, hne, hbindings, hbody, hnested, hvalue, hjoined⟩ :
      ∃ (bindings : List (Text × Expr)) (body : Expr), bindings ≠ [] ∧ AreBindable bindings ∧
        body.isWellFormed ∧
        (Expr.nestedLets bindings body).text = "(let x 2 (let x (add x x) (mult x x)))" ∧
        (Expr.nestedLets bindings body).value 4 4 [] 0 = .ok 16 ∧
        (Expr.letForm (LetTail.ofList bindings body)).text = "(let x 2 x (add x x) (mult x x))" :=
    ⟨[("x", .integer "2"), ("x", .operation .add (.name "x") (.name "x"))],
      .operation .mult (.name "x") (.name "x"), by decide, by unfold AreBindable; decide, by decide,
      by decide, by decide +kernel, by decide⟩
  have hsixteen : evaluate 4 (Expr.nestedLets bindings body).text = .ok 16 := by
    rw [evaluate_text_eq_value 4 (Expr.isWellFormed_nestedLets hbindings hbody), hvalue]
  have hdepth : ∀ n, evaluate 4 (Expr.nestedLets bindings body).text ≠ .error (.tooDeep n) := by
    simp [hsixteen]
  have hsame := evaluate_nestedLets hne hbindings hbody hdepth
  rw [hsixteen, hjoined] at hsame
  rw [hnested] at hsixteen
  refine ⟨hsixteen, ?_⟩
  generalize evaluate 4 "(let x 2 x (add x x) (mult x x))" = outcome at hsame ⊢
  cases hsame with
  | value => rfl

end Lets

end Sprig
