import SyntaxHighlight.Tree.Basic

/-! Which scopes of a tree under construction are open. -/
namespace SyntaxHighlight.TreeBuilder

variable (b : TreeBuilder)

def openNames : List String := b.opened.map OpenScope.name

@[simp] theorem openNames_attach (t : Tree) : (b.attach t).openNames = b.openNames := by
  unfold attach
  split <;> simp [openNames, *]

@[simp] theorem openNames_addText (s : String) : (b.addText s).openNames = b.openNames := by
  unfold addText
  split <;> simp

@[simp] theorem openNames_openScope (name : String) :
    (b.openScope name).openNames = name :: b.openNames := by
  rfl

@[simp] theorem openNames_closeScope : b.closeScope.openNames = b.openNames.tail := by
  unfold closeScope
  split
  · simp [openNames, *]
  · rename_i h
    rw [openNames_attach]
    simp [openNames, h]

@[simp] theorem openNames_addScoped (name s : String) :
    (b.addScoped name s).openNames = b.openNames := by
  unfold addScoped
  split <;> simp

@[simp] theorem openNames_embed (t : Tree) (language : Option String) :
    (b.embed t language).openNames = b.openNames := by
  cases language <;> simp [embed]

end SyntaxHighlight.TreeBuilder
