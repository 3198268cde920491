import Sprig.Text.Basic

/-!
# Scopes

The scopes of an evaluation form a tree, in which they are numbered in the order of their
creation; the root is scope `0`. Every scope binds names to values, and a name that it does not
bind is looked up in the scopes around it, as they are at that moment.

A scope carries its path: itself, its parent, and so on to the root.
-/

namespace Sprig

/-- A scope: its path to the root, and its bindings, the latest first. -/
structure Scope where
  path : List Nat
  bindings : List (Text × Int)
  deriving DecidableEq, Repr

/-- All scopes, each at its number. -/
structure ScopeTree where
  scopes : Array Scope
  deriving DecidableEq, Repr

namespace ScopeTree

/-- The tree of a root without bindings. -/
def root : ScopeTree := ⟨#[⟨[0], []⟩]⟩

/-- The path from a scope to the root. -/
def path (t : ScopeTree) (scope : Nat) : List Nat := (t.scopes[scope]?).elim [] Scope.path

/-- The bindings of a scope itself. -/
def bindings (t : ScopeTree) (scope : Nat) : List (Text × Int) :=
  (t.scopes[scope]?).elim [] Scope.bindings

/-- Makes a scope inside another: its number, and the tree with it. -/
def child (t : ScopeTree) (parent : Nat) : Nat × ScopeTree :=
  (t.scopes.size, ⟨t.scopes.push ⟨t.scopes.size :: t.path parent, []⟩⟩)

/-- Binds a name in a scope. -/
def define (t : ScopeTree) (scope : Nat) (name : Text) (value : Int) : ScopeTree :=
  ⟨t.scopes.modify scope fun s => { s with bindings := (name, value) :: s.bindings }⟩

/-- The value of a name: that of the nearest scope on the path that binds it. -/
def lookup? (t : ScopeTree) (scope : Nat) (name : Text) : Option Int :=
  (t.path scope).findSome? fun s => (t.bindings s).lookup name

/-! ### What the operations do to paths and bindings -/

@[simp] theorem path_define (t : ScopeTree) (scope s : Nat) (name : Text) (value : Int) :
    (t.define scope name value).path s = t.path s := by
  simp only [path, define, Array.getElem?_modify]
  split <;> cases t.scopes[s]? <;> rfl

theorem bindings_define_self (t : ScopeTree) {scope : Nat} (name : Text) (value : Int)
    (h : scope < t.scopes.size) :
    (t.define scope name value).bindings scope = (name, value) :: t.bindings scope := by
  simp [bindings, define, Array.getElem?_modify, Array.getElem?_eq_getElem h]

theorem bindings_define_of_ne (t : ScopeTree) {scope s : Nat} (name : Text) (value : Int)
    (h : scope ≠ s) : (t.define scope name value).bindings s = t.bindings s := by
  simp [bindings, define, Array.getElem?_modify, h]

@[simp] theorem fst_child (t : ScopeTree) (parent : Nat) : (t.child parent).1 = t.scopes.size := rfl

theorem path_child_self (t : ScopeTree) (parent : Nat) :
    (t.child parent).2.path t.scopes.size = t.scopes.size :: t.path parent := by
  simp [path, child]

theorem path_child_of_lt (t : ScopeTree) (parent : Nat) {s : Nat} (h : s < t.scopes.size) :
    (t.child parent).2.path s = t.path s := by
  simp [path, child, Array.getElem?_push_lt h, Array.getElem?_eq_getElem h]

@[simp] theorem bindings_child (t : ScopeTree) (parent s : Nat) :
    (t.child parent).2.bindings s = t.bindings s := by
  simp only [bindings, child, Array.getElem?_push]
  split
  · next h => simp [h]
  · rfl

end ScopeTree

end Sprig
