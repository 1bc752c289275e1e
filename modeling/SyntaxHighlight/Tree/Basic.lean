/-!
Token trees. A tree is built from the outside in, by texts and by scopes opened and closed, and
read back as the events of a walk.
-/
namespace SyntaxHighlight

/-- Text, or a scope around a sequence of trees. Only a root and an embedded tree of unknown
language have no scope name. -/
inductive Tree where
  | text (s : String)
  | scope (name : Option String) (children : List Tree)
deriving Repr, Inhabited

inductive TreeEvent where
  | opens (scope : Option String)
  | text (s : String)
  | closes (scope : Option String)
deriving DecidableEq, Repr

namespace Tree

mutual

/-- A tree's events: a scope opens, its children follow in order, it closes. -/
def walk : Tree → List TreeEvent
  | .text s => [.text s]
  | .scope name children => .opens name :: (walkAll children ++ [.closes name])

def walkAll : List Tree → List TreeEvent
  | [] => []
  | t :: ts => walk t ++ walkAll ts

end

def plainText (t : Tree) : String :=
  String.join (t.walk.map fun
    | .text s => s
    | _ => "")

/-- A tree without scopes. -/
def leaf (s : String) : Tree := .scope none (if s.isEmpty then [] else [.text s])

/-- The same tree with another name for its outermost scope. -/
def rename (name : Option String) : Tree → Tree
  | .scope _ children => .scope name children
  | t => t

end Tree

/-- A scope that is still open, its children so far with the latest first. -/
structure OpenScope where
  name : String
  children : List Tree
deriving Repr, Inhabited

/-- A tree under construction. -/
structure TreeBuilder where
  /-- The children of the root that are complete, the latest first. -/
  attached : List Tree := []
  /-- The scopes that are open, the innermost first. -/
  opened : List OpenScope := []
deriving Repr, Inhabited

namespace TreeBuilder

variable (b : TreeBuilder)

def attach (t : Tree) : TreeBuilder :=
  match b.opened with
  | [] => { b with attached := t :: b.attached }
  | scope :: outer => { b with opened := { scope with children := t :: scope.children } :: outer }

/-- Empty text leaves no trace. -/
def addText (s : String) : TreeBuilder := if s.isEmpty then b else b.attach (.text s)

def openScope (name : String) : TreeBuilder := { b with opened := ⟨name, []⟩ :: b.opened }

/-- Closes the innermost scope. The root never closes. -/
def closeScope : TreeBuilder :=
  match b.opened with
  | [] => b
  | scope :: outer =>
    { b with opened := outer }.attach (.scope (some scope.name) scope.children.reverse)

/-- Closes `n` scopes, or all if there are fewer. -/
def closeScopes : Nat → TreeBuilder → TreeBuilder
  | 0, b => b
  | n + 1, b => closeScopes n b.closeScope

def finalize : TreeBuilder := closeScopes b.opened.length b

def root : Tree := .scope none b.attached.reverse

def toTree : Tree := b.finalize.root

/-- Embeds a tree, marked with its language if that is known. -/
def embed (t : Tree) (language : Option String) : TreeBuilder :=
  match language with
  | some name => b.attach (t.rename (some ("language:" ++ name)))
  | none => b.attach t

/-- A scope around one text; none around no text. -/
def addScoped (name s : String) : TreeBuilder :=
  if s.isEmpty then b else ((b.openScope name).addText s).closeScope

end TreeBuilder

end SyntaxHighlight
