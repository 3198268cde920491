import Mathlib.Data.List.Basic
import Mathlib.Data.List.Induction
import Sprig.Evaluation.Basic
import Sprig.Proofs.Scope.Extension

/-!
# Histories of scopes

What a scope answers can be read off what has been done with the scopes of its tree, in any order:
the answer is the last value that the name was bound to in the nearest scope around it that has ever
bound it. It does not count when a scope was made, so a binding in a scope is seen in all scopes
inside it that have no binding of that name between, also in those that were there before.
-/

namespace Sprig

/-- A use of a scope. -/
inductive ScopeCall where
  /-- Makes a scope inside it. -/
  | child (scope : Nat)
  /-- Binds a name in it. -/
  | define (scope : Nat) (name : Text) (value : Int)
  /-- Asks it for the value of a name. -/
  | lookup (scope : Nat) (name : Text)
  deriving DecidableEq, Repr

namespace ScopeCall

/-- The scope that is used. -/
def scope : ScopeCall → Nat
  | child scope | define scope _ _ | lookup scope _ => scope

/-- The scope that a new one is made in. -/
def parent? : ScopeCall → Option Nat
  | child scope => some scope
  | define .. | lookup .. => none

end ScopeCall

/-- Uses of the scopes of a tree, in the order in which they were made. -/
abbrev ScopeHistory := List ScopeCall

namespace ScopeHistory

/-! ### What a history tells -/

/-- The scopes that new ones were made in. Each new scope has the number of scopes before it, and
the root has number `0`. -/
def parents (h : ScopeHistory) : List Nat := h.filterMap ScopeCall.parent?

/-- The number of scopes. -/
def size (h : ScopeHistory) : Nat := h.parents.length + 1

/-- Only scopes that are there are used. -/
inductive IsValid : ScopeHistory → Prop
  | nil : IsValid []
  | concat {h : ScopeHistory} {c : ScopeCall} (hh : IsValid h) (hc : c.scope < h.size) :
    IsValid (h ++ [c])

/-- The path of a scope: itself, the scope that it was made in, and so on to the root. -/
inductive IsPath (h : ScopeHistory) : Nat → List Nat → Prop
  | root : IsPath h 0 [0]
  | inside {scope parent : Nat} {path : List Nat} (hparent : h.parents[scope]? = some parent)
    (hpath : IsPath h parent path) : IsPath h (scope + 1) ((scope + 1) :: path)

/-- A name has ever been bound in a scope. -/
def Defines (h : ScopeHistory) (scope : Nat) (name : Text) : Prop :=
  ∃ value, .define scope name value ∈ h

/-- The last binding of a name in a scope was to a value. -/
def LastDefines (h : ScopeHistory) (scope : Nat) (name : Text) (value : Int) : Prop :=
  ∃ before after : ScopeHistory, h = before ++ .define scope name value :: after ∧
    ¬ after.Defines scope name

/-- A scope is on a path, and no scope before it on the path has ever bound a name. -/
def Reaches (h : ScopeHistory) (path : List Nat) (name : Text) (scope : Nat) : Prop :=
  ∃ nearer farther, path = nearer ++ scope :: farther ∧ ∀ s ∈ nearer, ¬ h.Defines s name

variable {h : ScopeHistory} {c : ScopeCall} {scope : Nat} {name : Text} {value value' : Int}
  {path path' : List Nat}

/-! ### Paths -/

lemma parents_concat (h : ScopeHistory) (c : ScopeCall) :
    parents (h ++ [c]) = h.parents ++ c.parent?.toList := by
  rw [parents, List.filterMap_append, ← parents]
  cases c <;> rfl

lemma size_concat (h : ScopeHistory) (c : ScopeCall) :
    size (h ++ [c]) = h.size + c.parent?.toList.length := by
  rw [size, size, parents_concat, List.length_append, Nat.add_right_comm]

lemma IsPath.unique (hpath : h.IsPath scope path) (hpath' : h.IsPath scope path') :
    path' = path := by
  induction hpath generalizing path' with
  | root =>
    cases hpath'
    rfl
  | inside hparent _ ih =>
    cases hpath' with
    | inside hparent' hpath' =>
      obtain rfl := Option.some.inj (hparent.symm.trans hparent')
      rw [ih hpath']

/-- Scopes that are made later change no path. -/
lemma IsPath.concat (hpath : h.IsPath scope path) (c : ScopeCall) :
    IsPath (h ++ [c]) scope path := by
  induction hpath with
  | root => exact .root
  | inside hparent _ ih =>
    refine .inside ?_ ih
    obtain ⟨hlt, -⟩ := List.getElem?_eq_some_iff.mp hparent
    rw [parents_concat, List.getElem?_append_left hlt, hparent]

/-! ### Bindings -/

lemma defines_concat : Defines (h ++ [c]) scope name ↔
    h.Defines scope name ∨ ∃ value, c = .define scope name value := by
  simp [Defines, exists_or, eq_comm]

lemma lastDefines_concat : LastDefines (h ++ [c]) scope name value ↔
    c = .define scope name value ∨
      ((∀ value', c ≠ .define scope name value') ∧ h.LastDefines scope name value) := by
  constructor
  · rintro ⟨before, after, heq, hafter⟩
    rcases List.eq_nil_or_concat' after with rfl | ⟨after, c', rfl⟩
    · exact Or.inl (List.singleton_injective (List.append_inj' heq rfl).2)
    · rw [← List.cons_append, ← List.append_assoc] at heq
      obtain ⟨rfl, hc⟩ := List.append_inj' heq rfl
      obtain rfl := List.singleton_injective hc
      rw [defines_concat, not_or, not_exists] at hafter
      exact Or.inr ⟨hafter.2, before, after, rfl, hafter.1⟩
  · rintro (rfl | ⟨hc, before, after, rfl, hafter⟩)
    · exact ⟨h, [], rfl, by simp [Defines]⟩
    · refine ⟨before, after ++ [c], by simp, ?_⟩
      rw [defines_concat, not_or, not_exists]
      exact ⟨hafter, hc⟩

lemma not_lastDefines_nil : ¬ LastDefines [] scope name value := by
  rintro ⟨before, after, heq, -⟩
  simp at heq

/-- A name that has ever been bound has a last binding. -/
lemma exists_lastDefines_iff :
    (∃ value, h.LastDefines scope name value) ↔ h.Defines scope name := by
  induction h using List.reverseRecOn with
  | nil => simp [not_lastDefines_nil, Defines]
  | append_singleton h c ih =>
    simp only [lastDefines_concat, defines_concat, exists_or, exists_and_left, ih]
    by_cases hc : ∃ value, c = .define scope name value
    · simp [hc]
    · rw [not_exists] at hc
      simp [hc]

/-! ### Scopes on a path -/

lemma reaches_cons {s : Nat} : h.Reaches (s :: path) name scope ↔
    s = scope ∨ (¬ h.Defines s name ∧ h.Reaches path name scope) := by
  constructor
  · rintro ⟨nearer, farther, heq, hnearer⟩
    cases nearer with
    | nil => exact Or.inl (List.cons.inj heq).1
    | cons s' nearer =>
      obtain ⟨rfl, rfl⟩ := List.cons.inj heq
      exact Or.inr ⟨hnearer s (by simp), nearer, farther, rfl,
        fun s hs => hnearer s (List.mem_cons_of_mem _ hs)⟩
  · rintro (rfl | ⟨hs, nearer, farther, rfl, hnearer⟩)
    · exact ⟨[], path, rfl, by simp⟩
    · exact ⟨s :: nearer, farther, rfl, by simpa using ⟨hs, hnearer⟩⟩

end ScopeHistory

/-! ### Trees with a history -/

/-- The scopes of a tree are what a history has made of them. -/
structure ScopeTree.Records (t : ScopeTree) (h : ScopeHistory) : Prop where
  size_eq : t.scopes.size = h.size
  isPath : ∀ scope < h.size, h.IsPath scope (t.path scope)
  lookup_bindings : ∀ scope name value,
    (t.bindings scope).lookup name = some value ↔ h.LastDefines scope name value

namespace ScopeTree

variable {t : ScopeTree} {h : ScopeHistory} {scope parent : Nat} {name : Text} {value : Int}

lemma records_root : root.Records [] where
  size_eq := rfl
  isPath := by
    intro scope hscope
    obtain rfl : scope = 0 := by simpa [ScopeHistory.size, ScopeHistory.parents] using hscope
    exact .root
  lookup_bindings := by
    intro scope name value
    have hnil : root.bindings scope = [] := by
      rcases scope with - | scope <;> rfl
    simp [hnil, ScopeHistory.not_lastDefines_nil]

lemma Records.child (hr : t.Records h) (hparent : parent < h.size) :
    (t.child parent).2.Records (h ++ [.child parent]) where
  size_eq := by
    rw [size_child, hr.size_eq, ScopeHistory.size_concat]
    rfl
  isPath := by
    intro scope hscope
    rw [ScopeHistory.size_concat] at hscope
    rcases Nat.lt_succ_iff_lt_or_eq.mp hscope with hscope | rfl
    · rw [path_child_of_lt t parent (hr.size_eq ▸ hscope)]
      exact (hr.isPath scope hscope).concat _
    · rw [← hr.size_eq, path_child_self, hr.size_eq]
      refine .inside ?_ ((hr.isPath parent hparent).concat _)
      simp [ScopeHistory.parents_concat, ScopeCall.parent?]
  lookup_bindings := by
    intro scope name value
    rw [bindings_child, hr.lookup_bindings, ScopeHistory.lastDefines_concat]
    simp

lemma Records.define (hr : t.Records h) (hscope : scope < h.size) (name : Text) (value : Int) :
    (t.define scope name value).Records (h ++ [.define scope name value]) where
  size_eq := by
    rw [size_define, hr.size_eq, ScopeHistory.size_concat]
    rfl
  isPath := by
    intro s hs
    rw [path_define]
    rw [ScopeHistory.size_concat] at hs
    exact (hr.isPath s hs).concat _
  lookup_bindings := by
    intro s name' value'
    rw [ScopeHistory.lastDefines_concat, ← hr.lookup_bindings]
    by_cases hs : scope = s
    · subst hs
      by_cases hname : name' = name
      · subst hname
        rw [bindings_define_self t name' value (hr.size_eq ▸ hscope), List.lookup_cons_self]
        simp
      · rw [lookup_bindings_define t scope scope value hname]
        simp [Ne.symm hname]
    · rw [bindings_define_of_ne t name value hs]
      simp [hs]

lemma Records.lookup (hr : t.Records h) (scope : Nat) (name : Text) :
    t.Records (h ++ [.lookup scope name]) where
  size_eq := by
    rw [hr.size_eq, ScopeHistory.size_concat]
    rfl
  isPath := by
    intro s hs
    rw [ScopeHistory.size_concat] at hs
    exact (hr.isPath s hs).concat _
  lookup_bindings := by
    intro s name' value'
    rw [hr.lookup_bindings, ScopeHistory.lastDefines_concat]
    simp

lemma Records.lookup_bindings_eq_none_iff (hr : t.Records h) :
    (t.bindings scope).lookup name = none ↔ ¬ h.Defines scope name := by
  rw [← ScopeHistory.exists_lastDefines_iff, not_exists]
  simp only [← hr.lookup_bindings, Option.eq_none_iff_forall_ne_some]

/-- The nearest scope on the path that has ever bound a name gives its last value. -/
lemma Records.lookup?_eq_some_iff (hr : t.Records h) : t.lookup? scope name = some value ↔
    ∃ a, h.Reaches (t.path scope) name a ∧ h.LastDefines a name value := by
  simp only [lookup?, List.findSome?_eq_some_iff, hr.lookup_bindings,
    hr.lookup_bindings_eq_none_iff, ScopeHistory.Reaches]
  constructor
  · rintro ⟨nearer, a, farther, hpath, hlast, hnearer⟩
    exact ⟨a, ⟨nearer, farther, hpath, hnearer⟩, hlast⟩
  · rintro ⟨a, ⟨nearer, farther, hpath, hnearer⟩, hlast⟩
    exact ⟨nearer, a, farther, hpath, hlast, hnearer⟩

lemma Records.lookup?_eq_none_iff (hr : t.Records h) : t.lookup? scope name = none ↔
    ∀ a ∈ t.path scope, ¬ h.Defines a name := by
  simp only [lookup?, List.findSome?_eq_none_iff, hr.lookup_bindings_eq_none_iff]

/-! ### What a call changes -/

lemma lookup?_child (t : ScopeTree) (parent : Nat) (hscope : scope < t.scopes.size) (name : Text) :
    (t.child parent).2.lookup? scope name = t.lookup? scope name := by
  rw [lookup?, lookup?, path_child_of_lt t parent hscope]
  exact findSome?_congr fun a _ => by rw [bindings_child]

/-- A binding in a scope that is not reached is not seen. -/
lemma Records.lookup?_define_of_not_reaches (hr : t.Records h) (value : Int) {a : Nat}
    (ha : ¬ h.Reaches (t.path scope) name a) :
    (t.define a name value).lookup? scope name = t.lookup? scope name := by
  rw [lookup?, lookup?, path_define]
  generalize t.path scope = path at ha ⊢
  induction path with
  | nil => rfl
  | cons s path ih =>
    rw [ScopeHistory.reaches_cons, not_or, not_and] at ha
    rw [List.findSome?_cons, List.findSome?_cons,
      bindings_define_of_ne t name value (Ne.symm ha.1)]
    cases hs : (t.bindings s).lookup name with
    | some _ => rfl
    | none => exact ih (ha.2 (hr.lookup_bindings_eq_none_iff.mp hs))

/-- A binding in a scope that is reached is seen. -/
lemma Records.lookup?_define_of_reaches (hr : t.Records h) (value : Int) {a : Nat}
    (hsize : a < h.size) (ha : h.Reaches (t.path scope) name a) :
    (t.define a name value).lookup? scope name = some value := by
  rw [lookup?, path_define]
  generalize t.path scope = path at ha ⊢
  induction path with
  | nil =>
    obtain ⟨nearer, farther, hpath, -⟩ := ha
    simp at hpath
  | cons s path ih =>
    by_cases hs : a = s
    · subst hs
      rw [List.findSome?_cons, bindings_define_self t name value (hr.size_eq ▸ hsize),
        List.lookup_cons_self]
    · obtain ⟨hnone, ha⟩ := (ScopeHistory.reaches_cons.mp ha).resolve_left (Ne.symm hs)
      rw [List.findSome?_cons, bindings_define_of_ne t name value hs,
        hr.lookup_bindings_eq_none_iff.mpr hnone]
      exact ih ha

end ScopeTree

/-! ### Evaluations with a history -/

namespace Evaluation

/-- The state that a step leaves, also when it fails. -/
def stateAfter {α : Type} (step : EvalM α) (s : Evaluation) : Evaluation :=
  match step s with
  | .ok _ t | .error _ t => t

/-- Makes a call. -/
def call (s : Evaluation) : ScopeCall → Evaluation
  | .child scope => stateAfter (newScope scope) s
  | .define scope name value => stateAfter (define scope name value) s
  | .lookup scope name => stateAfter (lookup scope name) s

/-- Makes the calls of a history, from a root without bindings on. -/
def afterCalls (tokens : TokenCursor) (h : ScopeHistory) : Evaluation :=
  h.foldl call ⟨tokens, .root⟩

/-- What a scope answers when it is asked for a name. -/
def answer (s : Evaluation) (scope : Nat) (name : Text) : Except Error Int :=
  match lookup scope name s with
  | .ok value _ => .ok value
  | .error e _ => .error e

variable {s : Evaluation} {h : ScopeHistory} {c : ScopeCall} {scope : Nat} {name : Text}
  {value : Int}

lemma answer_eq (s : Evaluation) (scope : Nat) (name : Text) :
    s.answer scope name = (s.scopes.lookup? scope name).elim (.error (.unboundName name)) .ok := by
  rw [answer, lookup_apply]
  cases s.scopes.lookup? scope name <;> rfl

lemma answer_eq_ok_iff :
    s.answer scope name = .ok value ↔ s.scopes.lookup? scope name = some value := by
  rw [answer_eq]
  cases s.scopes.lookup? scope name <;> simp

lemma answer_eq_error_iff :
    s.answer scope name = .error (.unboundName name) ↔ s.scopes.lookup? scope name = none := by
  rw [answer_eq]
  cases s.scopes.lookup? scope name <;> simp

lemma scopes_call_lookup (s : Evaluation) (scope : Nat) (name : Text) :
    (s.call (.lookup scope name)).scopes = s.scopes := by
  rw [call, stateAfter, lookup_apply]
  cases s.scopes.lookup? scope name <;> rfl

/-- A call keeps the tree in step with its history. -/
lemma records_call (hr : s.scopes.Records h) (hc : c.scope < h.size) :
    (s.call c).scopes.Records (h ++ [c]) := by
  cases c with
  | child parent => exact hr.child hc
  | define scope name value => exact hr.define hc name value
  | lookup scope name =>
    rw [scopes_call_lookup]
    exact hr.lookup scope name

lemma afterCalls_concat (tokens : TokenCursor) (h : ScopeHistory) (c : ScopeCall) :
    afterCalls tokens (h ++ [c]) = (afterCalls tokens h).call c :=
  List.foldl_append

lemma records_afterCalls (tokens : TokenCursor) (hh : h.IsValid) :
    (afterCalls tokens h).scopes.Records h := by
  induction hh with
  | nil => exact ScopeTree.records_root
  | concat _ hc ih =>
    rw [afterCalls_concat]
    exact records_call ih hc

/-- A call changes what a scope answers for a name only if it binds the name in a scope that is
reached. -/
lemma answer_call_of_not_reaches (hr : s.scopes.Records h) (hscope : scope < h.size)
    (hc : ∀ a value, c = .define a name value → ¬ h.Reaches (s.scopes.path scope) name a) :
    (s.call c).answer scope name = s.answer scope name := by
  rw [answer_eq, answer_eq]
  congr 1
  cases c with
  | child parent => exact s.scopes.lookup?_child parent (hr.size_eq ▸ hscope) name
  | define a name' value =>
    by_cases hname : name = name'
    · subst hname
      exact hr.lookup?_define_of_not_reaches value (hc a value rfl)
    · exact s.scopes.lookup?_define_of_ne a scope value hname
  | lookup scope' name' => rw [scopes_call_lookup]

lemma answer_call_of_reaches (hr : s.scopes.Records h) (value : Int) {a : Nat} (hsize : a < h.size)
    (ha : h.Reaches (s.scopes.path scope) name a) :
    (s.call (.define a name value)).answer scope name = .ok value :=
  answer_eq_ok_iff.mpr (hr.lookup?_define_of_reaches value hsize ha)

/-- After any history, a new scope gets the next number, and a scope answers for a name what the
name was last bound to in the nearest scope on its path that has ever bound it, and fails if there
is none. A further call changes this only if it binds the name in a scope that is reached. -/
theorem answer_afterCalls (tokens : TokenCursor) (hh : h.IsValid) :
    (∀ parent < h.size, newScope parent (afterCalls tokens h) =
      .ok h.size (afterCalls tokens (h ++ [.child parent]))) ∧
    ∀ scope < h.size, ∃ path, (∀ path', h.IsPath scope path' ↔ path' = path) ∧ ∀ name,
      (∀ value, (afterCalls tokens h).answer scope name = .ok value ↔
        ∃ a, h.Reaches path name a ∧ h.LastDefines a name value) ∧
      ((afterCalls tokens h).answer scope name = .error (.unboundName name) ↔
        ∀ a ∈ path, ¬ h.Defines a name) ∧
      (∀ c : ScopeCall, (∀ a value, c = .define a name value → ¬ h.Reaches path name a) →
        (afterCalls tokens (h ++ [c])).answer scope name =
          (afterCalls tokens h).answer scope name) ∧
      ∀ a < h.size, h.Reaches path name a → ∀ value,
        (afterCalls tokens (h ++ [.define a name value])).answer scope name = .ok value := by
  have hr := records_afterCalls tokens hh
  simp only [afterCalls_concat]
  refine ⟨fun parent _ => ?_, fun scope hscope => ?_⟩
  · rw [newScope_apply, ScopeTree.fst_child, hr.size_eq]
    rfl
  have hpath := hr.isPath scope hscope
  refine ⟨(afterCalls tokens h).scopes.path scope, fun path' => ?_, fun name => ⟨?_, ?_, ?_, ?_⟩⟩
  · constructor
    · exact hpath.unique
    · rintro rfl
      exact hpath
  · intro value
    rw [answer_eq_ok_iff, hr.lookup?_eq_some_iff]
  · rw [answer_eq_error_iff, hr.lookup?_eq_none_iff]
  · intro c hc
    exact answer_call_of_not_reaches hr hscope hc
  · intro a hsize ha value
    exact answer_call_of_reaches hr value hsize ha

/-- A binding in the root is seen in a scope that was made before it, but not in one that has a
binding of its own. -/
theorem answer_afterCalls_shadow :
    ∃ (tokens : TokenCursor) (h : ScopeHistory), TokenCursor.ofText "x" = .ok tokens ∧
      h = [.child 0, .child 1, .define 2 "x" 2, .define 0 "x" 3] ∧ h.IsValid ∧
      (afterCalls tokens h).answer 1 "x" = .ok 3 ∧ (afterCalls tokens h).answer 2 "x" = .ok 2 := by
  have hvalid : ScopeHistory.IsValid [.child 0, .child 1, .define 2 "x" 2, .define 0 "x" 3] :=
    ((((ScopeHistory.IsValid.nil.concat (by decide)).concat (by decide)).concat
      (by decide)).concat (by decide))
  obtain ⟨-, hanswer⟩ := answer_afterCalls ⟨⟨1, []⟩, ⟨.identifier, "x", 0⟩, none⟩ hvalid
  refine ⟨_, _, rfl, rfl, hvalid, ?_, ?_⟩
  · obtain ⟨path, hpath, hname⟩ := hanswer 1 (by decide)
    obtain rfl := (hpath [1, 0]).mp (.inside rfl .root)
    refine ((hname "x").1 3).mpr ⟨0, ⟨[1], [], rfl, ?_⟩,
      [.child 0, .child 1, .define 2 "x" 2], [], rfl, ?_⟩
    · simp [ScopeHistory.Defines]
    · simp [ScopeHistory.Defines]
  · obtain ⟨path, hpath, hname⟩ := hanswer 2 (by decide)
    obtain rfl := (hpath [2, 1, 0]).mp (.inside rfl (.inside rfl .root))
    refine ((hname "x").1 2).mpr ⟨2, ⟨[], [1, 0], rfl, ?_⟩, [.child 0, .child 1], _, rfl, ?_⟩
    · simp
    · simp [ScopeHistory.Defines]

end Evaluation

end Sprig
