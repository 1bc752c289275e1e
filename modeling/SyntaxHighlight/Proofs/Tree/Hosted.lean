import SyntaxHighlight.Tree.Basic
import SyntaxHighlight.Dictionary

/-!
Trees in which the scopes of a language can be told from those of the languages that are embedded in
it. Names can then be written in place of its own scopes alone.
-/
namespace SyntaxHighlight

/-- A tree of a language that hosts others, whose trees stay as they are. -/
inductive HostTree where
  | text (s : String)
  | scope (name : String) (children : List HostTree)
  | embedded (tree : Tree)

namespace HostTree

variable (names : Dictionary String)

mutual

/-- The tree with names in place of its own scopes. A scope without another name keeps its own. -/
def under : HostTree → Tree
  | .text s => .text s
  | .scope name children => .scope (some ((names.get? name).getD name)) (underAll children)
  | .embedded tree => tree

def underAll : List HostTree → List Tree
  | [] => []
  | t :: ts => under t :: underAll ts

end

end HostTree

namespace Tree

def marked (t : Tree) : Tree := .scope none [t]

mutual

/-- A tree in which all embedded ones are marked. -/
def host : Tree → HostTree
  | .text s => .text s
  | .scope (some name) children => .scope name (hostAll children)
  | .scope none children => .embedded (children.head?.getD (.leaf ""))

def hostAll : List Tree → List HostTree
  | [] => []
  | t :: ts => host t :: hostAll ts

end

/-- The trees within the outermost scope. -/
def hosted : Tree → List HostTree
  | .text s => [.text s]
  | .scope _ children => hostAll children

variable (names : Dictionary String)

theorem underAll_hostAll (ts : List Tree) :
    HostTree.underAll names (hostAll ts) = ts.map fun t ↦ t.host.under names := by
  induction ts with
  | nil => rfl
  | cons t ts ih => rw [hostAll, HostTree.underAll, ih, List.map_cons]

@[simp] theorem under_text (s : String) : (text s).host.under names = .text s := by
  rw [host, HostTree.under]

@[simp] theorem under_scope (name : String) (children : List Tree) :
    (scope (some name) children).host.under names =
      .scope (some ((names.get? name).getD name)) (children.map fun t ↦ t.host.under names) := by
  rw [host, HostTree.under, underAll_hostAll]

@[simp] theorem under_marked (t : Tree) : t.marked.host.under names = t := by
  rw [marked, host, HostTree.under]
  rfl

end Tree

/-- A scope under construction, with names for it and the scopes within it. -/
def OpenScope.under (names : Dictionary String) (scope : OpenScope) : OpenScope :=
  ⟨(names.get? scope.name).getD scope.name, scope.children.map fun t ↦ t.host.under names⟩

namespace TreeBuilder

variable (names : Dictionary String) (b : TreeBuilder)

def under : TreeBuilder :=
  ⟨b.attached.map fun t ↦ t.host.under names, b.opened.map (OpenScope.under names)⟩

@[simp] theorem under_attach (t : Tree) :
    (b.attach t).under names = (b.under names).attach (t.host.under names) := by
  obtain ⟨attached, opened⟩ := b
  cases opened <;> simp [attach, under, OpenScope.under]

@[simp] theorem under_addText (s : String) :
    (b.addText s).under names = (b.under names).addText s := by
  unfold addText
  split <;> simp

@[simp] theorem under_openScope (name : String) :
    (b.openScope name).under names =
      (b.under names).openScope ((names.get? name).getD name) := by
  simp [openScope, under, OpenScope.under]

@[simp] theorem under_closeScope :
    b.closeScope.under names = (b.under names).closeScope := by
  obtain ⟨attached, opened⟩ := b
  cases opened with
  | nil => rfl
  | cons scope outer =>
    have hclosed := under_attach names ⟨attached, outer⟩
      (.scope (some scope.name) scope.children.reverse)
    simpa [closeScope, under, OpenScope.under] using hclosed

theorem under_closeScopes (n : Nat) :
    (closeScopes n b).under names = closeScopes n (b.under names) := by
  induction n generalizing b with
  | zero => rfl
  | succ n ih => rw [closeScopes, closeScopes, ih, under_closeScope]

theorem under_finalize : b.finalize.under names = (b.under names).finalize := by
  rw [finalize, under_closeScopes, finalize, under, List.length_map]

/-- A finished tree has the names that its scopes had when they were written. -/
theorem toTree_under :
    (b.under names).toTree = .scope none (HostTree.underAll names b.toTree.hosted) := by
  rw [toTree, ← under_finalize, toTree, root, root, Tree.hosted, Tree.underAll_hostAll]
  simp [under]

end TreeBuilder

end SyntaxHighlight
