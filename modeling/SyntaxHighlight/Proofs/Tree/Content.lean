import SyntaxHighlight.Tree.Basic

/-! The text of a tree under construction. Opening and closing scopes does not change it. -/
namespace SyntaxHighlight

/-- The text that an event of a walk carries. -/
def TreeEvent.written : TreeEvent → String
  | .text s => s
  | _ => ""

namespace Tree

def textOf (ts : List Tree) : String := String.join (ts.map plainText)

theorem plainText_eq_join (t : Tree) :
    t.plainText = String.join (t.walk.map TreeEvent.written) := by
  rfl

@[simp] theorem plainText_text (s : String) : (text s).plainText = s := by
  simp [plainText_eq_join, walk, TreeEvent.written]

theorem join_walkAll (ts : List Tree) :
    String.join ((walkAll ts).map TreeEvent.written) = textOf ts := by
  induction ts with
  | nil => rfl
  | cons t ts ih =>
    simp only [walkAll, List.map_append, String.join_append, ih, textOf, List.map_cons,
      String.join_cons, plainText_eq_join]

@[simp] theorem plainText_scope (name : Option String) (children : List Tree) :
    (scope name children).plainText = textOf children := by
  simp [plainText_eq_join, walk, TreeEvent.written, join_walkAll]

@[simp] theorem textOf_nil : textOf [] = "" := by rfl

@[simp] theorem textOf_append (ts us : List Tree) : textOf (ts ++ us) = textOf ts ++ textOf us := by
  simp [textOf]

@[simp] theorem textOf_singleton (t : Tree) : textOf [t] = t.plainText := by simp [textOf]

@[simp] theorem plainText_leaf (s : String) : (leaf s).plainText = s := by
  by_cases h : s.isEmpty
  · simp_all [leaf]
  · simp [leaf, h]

@[simp] theorem plainText_rename (name : Option String) (t : Tree) :
    (t.rename name).plainText = t.plainText := by
  cases t <;> simp [rename]

end Tree

namespace TreeBuilder

variable (b : TreeBuilder)

/-- All text that has been added, in order. -/
def content : String :=
  Tree.textOf b.attached.reverse ++
    String.join (b.opened.reverse.map fun scope ↦ Tree.textOf scope.children.reverse)

@[simp] theorem content_empty : content {} = "" := by rfl

@[simp] theorem content_attach (t : Tree) : (b.attach t).content = b.content ++ t.plainText := by
  unfold attach
  split <;> simp [content, *, String.append_assoc]

@[simp] theorem content_addText (s : String) : (b.addText s).content = b.content ++ s := by
  by_cases h : s.isEmpty
  · simp_all [addText]
  · simp [addText, h]

@[simp] theorem content_openScope (name : String) : (b.openScope name).content = b.content := by
  simp [openScope, content]

@[simp] theorem content_closeScope : b.closeScope.content = b.content := by
  unfold closeScope
  split
  · rfl
  · rename_i scope outer h
    rw [content_attach, Tree.plainText_scope]
    simp [content, h, String.append_assoc]

@[simp] theorem content_addScoped (name s : String) :
    (b.addScoped name s).content = b.content ++ s := by
  by_cases h : s.isEmpty
  · simp_all [addScoped]
  · simp [addScoped, h]

@[simp] theorem content_embed (t : Tree) (language : Option String) :
    (b.embed t language).content = b.content ++ t.plainText := by
  cases language <;> simp [embed]

theorem content_closeScopes (n : Nat) : (closeScopes n b).content = b.content := by
  induction n generalizing b with
  | zero => rfl
  | succ n ih => rw [closeScopes, ih, content_closeScope]

theorem opened_closeScope : b.closeScope.opened.length = b.opened.length - 1 := by
  unfold closeScope
  split
  · simp [*]
  · rename_i scope outer h
    cases outer <;> simp [attach, h]

theorem opened_closeScopes (n : Nat) :
    (closeScopes n b).opened.length = b.opened.length - n := by
  induction n generalizing b with
  | zero => rfl
  | succ n ih => rw [closeScopes, ih, opened_closeScope]; omega

theorem opened_finalize : b.finalize.opened = [] := by
  have h := opened_closeScopes b b.opened.length
  rw [Nat.sub_self, List.length_eq_zero_iff] at h
  exact h

theorem plainText_toTree : b.toTree.plainText = b.content := by
  have h : b.finalize.root.plainText = b.finalize.content := by
    simp [root, content, opened_finalize]
  rw [toTree, h, finalize, content_closeScopes]

end TreeBuilder

end SyntaxHighlight
