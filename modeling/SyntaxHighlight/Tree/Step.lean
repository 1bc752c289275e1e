import SyntaxHighlight.Tree.Basic

/-! Trees written down as the steps that build them. -/
namespace SyntaxHighlight

inductive TreeStep where
  | text (s : String)
  | opens (scope : String)
  | closes
  | finalize
  /-- A tree with steps of its own. -/
  | embed (language : Option String) (steps : List TreeStep)
  | code
deriving Repr, Inhabited, BEq

namespace TreeStep

mutual

def apply (code : String) (b : TreeBuilder) : TreeStep → TreeBuilder
  | .text s => b.addText s
  | .opens scope => b.openScope scope
  | .closes => b.closeScope
  | .finalize => b.finalize
  | .embed language steps => b.embed (applyAll code {} steps).toTree language
  | .code => b.addText code

def applyAll (code : String) (b : TreeBuilder) : List TreeStep → TreeBuilder
  | [] => b
  | step :: steps => applyAll code (step.apply code b) steps

end

end TreeStep

/-- Writes the tree of a text without a scan. -/
structure Emission where
  steps : String → List TreeStep
deriving Inhabited

/-- Steps that are the same for every text. -/
instance : Coe (List TreeStep) Emission := ⟨fun steps ↦ ⟨fun _ ↦ steps⟩⟩

def Emission.emit (emission : Emission) (code : String) (b : TreeBuilder) : TreeBuilder :=
  TreeStep.applyAll code b (emission.steps code)

end SyntaxHighlight
