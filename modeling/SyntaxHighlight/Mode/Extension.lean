import SyntaxHighlight.Grammar.Error
import SyntaxHighlight.Mode.Basic

/-! Changes that a grammar makes to its own modes when it is compiled. -/
namespace SyntaxHighlight

/-- Any change to a mode, given the mode around it. Modes are told apart by their places, so the
modes within stay as they are. -/
structure Rewrite where
  run : Mode → Option Mode → Except GrammarError Mode
  contains : ∀ mode parent mode', run mode parent = .ok mode' → mode'.contains = mode.contains
  starts : ∀ mode parent mode', run mode parent = .ok mode' → mode'.starts = mode.starts
  /-- Only the compilation itself can tell that it does not end. -/
  ends : ∀ mode parent, run mode parent ≠ .error .endlessNesting

namespace Rewrite

def keep : Rewrite where
  run mode _ := pure mode
  contains := by
    rintro mode - _ ⟨⟩
    rfl
  starts := by
    rintro mode - _ ⟨⟩
    rfl
  ends := nofun

instance : Inhabited Rewrite := ⟨keep⟩

end Rewrite

/-- A change to the modes that satisfy every condition that is set. -/
structure Extension where
  isRoot : Option Bool := none
  scope : Option String := none
  parentScope : Option String := none
  begin : Option String := none
  /-- Why such a mode is refused. -/
  refusal : Option String := none
  newScope : Option String := none
  newBegin : Option String := none
  newEnding : Option String := none
  newRelevance : Option Nat := none
  newOnBegin : Option Callback := none
  newOnEnd : Option Callback := none
  rewrite : Rewrite := .keep
deriving Inhabited

namespace Extension

variable (e : Extension)

def met {α : Type} [BEq α] (condition : Option α) (value : Option α) : Bool :=
  condition.isNone || condition == value

def applies (mode : Mode) (parent : Option Mode) : Bool :=
  met e.isRoot (some parent.isNone) &&
    met (e.scope.map Scope.name) mode.scope &&
    met (e.parentScope.map Scope.name) (parent.bind Mode.scope) &&
    met (e.begin.map Boundary.source) mode.begin

def set (mode : Mode) : Mode :=
  { mode with
    scope := (e.newScope.map Scope.name) <|> mode.scope
    begin := (e.newBegin.map Boundary.source) <|> mode.begin
    ending := (e.newEnding.map Boundary.source) <|> mode.ending
    relevance := e.newRelevance <|> mode.relevance
    onBegin := e.newOnBegin <|> mode.onBegin
    onEnd := e.newOnEnd <|> mode.onEnd }

def apply (mode : Mode) (parent : Option Mode) : Except GrammarError Mode :=
  if !e.applies mode parent then pure mode
  else
    match e.refusal with
    | some reason => throw (.extensionFailed reason)
    | none => e.rewrite.run (e.set mode) parent

end Extension

end SyntaxHighlight
