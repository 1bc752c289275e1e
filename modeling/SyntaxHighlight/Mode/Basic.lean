import SyntaxHighlight.Keyword.Basic
import SyntaxHighlight.Mode.Callback

/-!
Modes, as a grammar describes them. A mode is a stretch of text between a begin and an end; it may
have a scope, keywords and modes of its own within it.
-/
namespace SyntaxHighlight

/-- A scope for a whole match, or one for each of several parts of it. -/
inductive Scope where
  | name (s : String)
  /-- Scopes by the number of the part, ascending. -/
  | captures (names : List (Nat × String))
deriving DecidableEq, Repr, Inhabited

namespace Scope

/-- Gives a part a scope, in place of the one that it has. -/
def insertCapture (part : Nat) (name : String) (names : List (Nat × String)) :
    List (Nat × String) :=
  let others := names.filter (·.1 ≠ part)
  others.takeWhile (·.1 < part) ++ (part, name) :: others.dropWhile (·.1 < part)

/-- Of several scopes for one part, the last counts. -/
def ofCaptures (names : List (Nat × String)) : Scope :=
  .captures (names.foldl (fun names entry ↦ insertCapture entry.1 entry.2 names) [])

end Scope

/-- A begin or an end: one pattern, or patterns that match one right after another. -/
inductive Boundary where
  | source (s : String)
  | sequence (parts : List String)
deriving DecidableEq, Repr, Inhabited

/-- What must not occur within a mode. -/
inductive Illegal where
  | source (s : String)
  | anyOf (sources : List String)
deriving DecidableEq, Repr, Inhabited

/-- The language of what stands within a mode. -/
inductive SubLanguage where
  | fixed (name : String)
  /-- The best of these, or of all if there are none. -/
  | detect (names : List String)
deriving DecidableEq, Repr, Inhabited

/-- What may occur within a mode. -/
inductive Entry (mode : Type) where
  | self
  | named (name : String)
  | inline (mode : mode)
deriving Inhabited

structure Mode where
  scope : Option Scope := none
  /-- Another way to name the scope. It wins over `scope`. -/
  className : Option String := none
  beginScope : Option Scope := none
  endScope : Option Scope := none
  begin : Option Boundary := none
  ending : Option Boundary := none
  /-- A begin of a mode that has no end of its own. -/
  matching : Option Boundary := none
  /-- What has to stand before the begin without being a part of the mode. -/
  beforeMatch : Option String := none
  beginKeywords : Option String := none
  keywords : Option Keywords := none
  illegal : Option Illegal := none
  contains : List (Entry Mode) := []
  /-- The mode that begins where this one has ended. -/
  starts : Option Mode := none
  /-- Special forms of the mode, each of which takes its place. -/
  variants : List Mode := []
  relevance : Option Nat := none
  /-- The begin belongs to the text before the mode. -/
  excludeBegin : Bool := false
  excludeEnd : Bool := false
  /-- The begin is looked at, and then read again within the mode. -/
  returnBegin : Bool := false
  returnEnd : Bool := false
  /-- The mode also ends where its parent does. -/
  endsWithParent : Bool := false
  /-- The parent ends where the mode does. -/
  endsParent : Bool := false
  /-- The begin is left to the text of the mode. -/
  skip : Bool := false
  subLanguage : Option SubLanguage := none
  onBegin : Option Callback := none
  onEnd : Option Callback := none
deriving Inhabited

namespace Mode

/-- The mode with what a variant says laid over it: what the variant sets counts, and a flag counts
if either has it. The result has no variants. -/
def overlay (base variant : Mode) : Mode where
  scope := variant.scope <|> base.scope
  className := variant.className <|> base.className
  beginScope := variant.beginScope <|> base.beginScope
  endScope := variant.endScope <|> base.endScope
  begin := variant.begin <|> base.begin
  ending := variant.ending <|> base.ending
  matching := variant.matching <|> base.matching
  beforeMatch := variant.beforeMatch <|> base.beforeMatch
  beginKeywords := variant.beginKeywords <|> base.beginKeywords
  keywords := variant.keywords <|> base.keywords
  illegal := variant.illegal <|> base.illegal
  contains := if variant.contains.isEmpty then base.contains else variant.contains
  starts := variant.starts <|> base.starts
  variants := []
  relevance := variant.relevance <|> base.relevance
  excludeBegin := variant.excludeBegin || base.excludeBegin
  excludeEnd := variant.excludeEnd || base.excludeEnd
  returnBegin := variant.returnBegin || base.returnBegin
  returnEnd := variant.returnEnd || base.returnEnd
  endsWithParent := variant.endsWithParent || base.endsWithParent
  endsParent := variant.endsParent || base.endsParent
  skip := variant.skip || base.skip
  subLanguage := variant.subLanguage <|> base.subLanguage
  onBegin := variant.onBegin <|> base.onBegin
  onEnd := variant.onEnd <|> base.onEnd

/-- Whether where the mode ends depends on where it is placed: it ends with its parent, or a mode
does that it starts. -/
def dependsOnParent : Mode → Bool
  | { endsWithParent, starts, .. } =>
    endsWithParent || match starts with
      | some next => next.dependsOnParent
      | none => false

end Mode

end SyntaxHighlight
