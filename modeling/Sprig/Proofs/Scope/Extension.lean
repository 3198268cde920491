import Mathlib.Order.Nat
import Mathlib.Tactic.Common
import Sprig.Expr.Value
import Sprig.Scope

/-!
# Scopes as environments

A scope tree grows while a text is evaluated. In a well-formed tree the scopes on a path get
smaller numbers towards the root, so a tree that grows changes no answer of an older scope: it may
get new scopes, and names may be bound in those. `ScopeTree.Holds` reads a scope as the list of
bindings that it answers like.
-/

namespace Sprig.ScopeTree

/-- Every path starts at its own scope and goes on to older ones. -/
def IsWellFormed (t : ScopeTree) : Prop :=
  ∀ s < t.scopes.size, ∃ ancestors, t.path s = s :: ancestors ∧ ∀ a ∈ ancestors, a < s

/-- A tree in which all scopes of another one are as they were. -/
def Extends (t' t : ScopeTree) : Prop :=
  t.scopes.size ≤ t'.scopes.size ∧ ∀ s < t.scopes.size, t'.scopes[s]? = t.scopes[s]?

/-- A scope that answers like a list of bindings. -/
def Holds (t : ScopeTree) (scope : Nat) (env : Bindings) : Prop :=
  scope < t.scopes.size ∧ ∀ name, t.lookup? scope name = env.lookup name

variable {t t' t'' : ScopeTree} {scope : Nat} {env : Bindings}

/-! ### Growth -/

lemma Extends.refl (t : ScopeTree) : t.Extends t := ⟨le_rfl, fun _ _ => rfl⟩

lemma Extends.trans (h : t''.Extends t') (h' : t'.Extends t) : t''.Extends t := by
  refine ⟨h'.1.trans h.1, fun s hs => ?_⟩
  rw [h.2 s (hs.trans_le h'.1), h'.2 s hs]

lemma Extends.path_eq (h : t'.Extends t) {s : Nat} (hs : s < t.scopes.size) :
    t'.path s = t.path s := by
  rw [path, path, h.2 s hs]

lemma Extends.bindings_eq (h : t'.Extends t) {s : Nat} (hs : s < t.scopes.size) :
    t'.bindings s = t.bindings s := by
  rw [bindings, bindings, h.2 s hs]

lemma findSome?_congr {α β : Type} {f g : α → Option β} {l : List α} (h : ∀ a ∈ l, f a = g a) :
    l.findSome? f = l.findSome? g := by
  induction l with
  | nil => rfl
  | cons a l ih => rw [List.findSome?_cons, List.findSome?_cons, h a (by simp),
      ih fun b hb => h b (by simp [hb])]

lemma IsWellFormed.lt_of_mem_path (h : t.IsWellFormed) {s a : Nat} (hs : s < t.scopes.size)
    (ha : a ∈ t.path s) : a < t.scopes.size := by
  obtain ⟨ancestors, hpath, hancestors⟩ := h s hs
  rw [hpath] at ha
  rcases List.mem_cons.mp ha with rfl | ha
  · exact hs
  · exact (hancestors a ha).trans hs

/-- What an older scope answers is not changed by growth. -/
theorem Extends.lookup?_eq (h : t'.Extends t) (ht : t.IsWellFormed) {s : Nat}
    (hs : s < t.scopes.size) (name : Text) : t'.lookup? s name = t.lookup? s name := by
  rw [lookup?, lookup?, h.path_eq hs]
  exact findSome?_congr fun a ha => by rw [h.bindings_eq (ht.lt_of_mem_path hs ha)]

lemma Holds.of_extends (hholds : t.Holds scope env) (ht : t.IsWellFormed) (h : t'.Extends t) :
    t'.Holds scope env :=
  ⟨hholds.1.trans_le h.1, fun name => (h.lookup?_eq ht hholds.1 name).trans (hholds.2 name)⟩

/-! ### The root -/

lemma isWellFormed_root : root.IsWellFormed := by
  intro s hs
  obtain rfl : s = 0 := by simpa [root] using hs
  exact ⟨[], rfl, by simp⟩

lemma holds_root : root.Holds 0 [] := ⟨by decide, fun _ => rfl⟩

/-! ### New scopes -/

lemma size_child (t : ScopeTree) (parent : Nat) :
    (t.child parent).2.scopes.size = t.scopes.size + 1 := by
  simp [child]

lemma extends_child (t : ScopeTree) (parent : Nat) : (t.child parent).2.Extends t := by
  refine ⟨by simp [size_child], fun s hs => ?_⟩
  simp [child, Array.getElem?_push_lt hs, Array.getElem?_eq_getElem hs]

lemma IsWellFormed.child (h : t.IsWellFormed) {parent : Nat} (hparent : parent < t.scopes.size) :
    (t.child parent).2.IsWellFormed := by
  intro s hs
  rw [size_child] at hs
  rcases Nat.lt_succ_iff_lt_or_eq.mp hs with hs | rfl
  · rw [path_child_of_lt t parent hs]
    exact h s hs
  · exact ⟨t.path parent, path_child_self t parent, fun a ha => h.lt_of_mem_path hparent ha⟩

/-- A new scope answers like the one around it. -/
lemma Holds.child (hholds : t.Holds scope env) : (t.child scope).2.Holds t.scopes.size env := by
  refine ⟨by simp [size_child], fun name => ?_⟩
  have hempty : t.bindings t.scopes.size = [] := by simp [bindings]
  rw [lookup?, path_child_self, List.findSome?_cons, bindings_child, hempty]
  simpa [lookup?] using hholds.2 name

/-! ### New bindings -/

@[simp] lemma size_define (t : ScopeTree) (scope : Nat) (name : Text) (value : Int) :
    (t.define scope name value).scopes.size = t.scopes.size := by
  simp [define]

lemma IsWellFormed.define (h : t.IsWellFormed) (scope : Nat) (name : Text) (value : Int) :
    (t.define scope name value).IsWellFormed := by
  intro s hs
  rw [path_define]
  exact h s (by simpa using hs)

/-- A binding in a scope that an older tree does not have. -/
lemma Extends.define (h : t'.Extends t) (hscope : t.scopes.size ≤ scope) (name : Text)
    (value : Int) : (t'.define scope name value).Extends t := by
  refine ⟨by simpa using h.1, fun s hs => ?_⟩
  have hne : scope ≠ s := by omega
  rw [← h.2 s hs]
  simp [ScopeTree.define, Array.getElem?_modify, hne]

lemma lookup_bindings_define (t : ScopeTree) (scope s : Nat) {name name' : Text} (value : Int)
    (hne : name' ≠ name) :
    ((t.define scope name value).bindings s).lookup name' = (t.bindings s).lookup name' := by
  by_cases hs : scope = s
  · subst hs
    by_cases hscope : scope < t.scopes.size
    · rw [bindings_define_self t name value hscope, List.lookup_cons, beq_eq_false_iff_ne.mpr hne]
    · simp [bindings, define, hscope]
  · rw [bindings_define_of_ne t name value hs]

lemma lookup?_define_of_ne (t : ScopeTree) (scope s : Nat) {name name' : Text} (value : Int)
    (hne : name' ≠ name) : (t.define scope name value).lookup? s name' = t.lookup? s name' := by
  rw [lookup?, lookup?, path_define]
  exact findSome?_congr fun a _ => lookup_bindings_define t scope a value hne

/-- A new binding comes before the older ones. -/
lemma Holds.define (hholds : t.Holds scope env) (ht : t.IsWellFormed) (name : Text)
    (value : Int) : (t.define scope name value).Holds scope ((name, value) :: env) := by
  refine ⟨by simpa using hholds.1, fun name' => ?_⟩
  obtain ⟨ancestors, hpath, -⟩ := ht scope hholds.1
  by_cases hname : name' = name
  · subst hname
    simp [lookup?, hpath, bindings_define_self t name' value hholds.1]
  · rw [List.lookup_cons, beq_eq_false_iff_ne.mpr hname, ← hholds.2 name']
    exact t.lookup?_define_of_ne scope scope value hname

end Sprig.ScopeTree
