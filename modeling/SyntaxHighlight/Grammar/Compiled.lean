import SyntaxHighlight.Keyword.Table
import SyntaxHighlight.Mode.Prepared
import SyntaxHighlight.Rule.Resumable
import SyntaxHighlight.Tree.Step

/-!
Compiled grammars. The modes stand in one array and refer to each other by their numbers, so a mode
may contain itself.
-/
namespace SyntaxHighlight

structure CompiledMode where
  scope : Option String
  beginTagging : Option Tagging
  endTagging : Option Tagging
  /-- The pattern of the begin, as the modes around this one search for it. -/
  begin : String
  /-- The end of the mode itself, which tells whether it is the mode that ends. -/
  ending : Option Regex.Expr
  /-- The pattern of whatever ends the mode, also from outside; empty if nothing does. -/
  terminator : String
  keywords : Option KeywordTable
  keywordPattern : Option Regex.Expr
  relevance : Nat
  excludeBegin : Bool
  excludeEnd : Bool
  returnBegin : Bool
  returnEnd : Bool
  endsWithParent : Bool
  endsParent : Bool
  skip : Bool
  subLanguage : Option SubLanguage
  contains : List Nat
  starts : Option Nat
  beforeBegin : Option Callback
  onBegin : Option Callback
  onEnd : Option Callback
  matcher : Rule.Resumable
deriving Inhabited

def CompiledMode.displayName (m : CompiledMode) : String := m.scope.getD "<unnamed>"

structure CompiledGrammar where
  name : String
  caseInsensitive : Bool
  classNameAliases : Dictionary String
  emitTokens : Option Emission
  /-- The outermost mode comes first. -/
  modes : Array CompiledMode
deriving Inhabited

namespace CompiledGrammar

variable (g : CompiledGrammar)

def rootId : Nat := 0

def mode (id : Nat) : CompiledMode := g.modes[id]?.getD default

def root : CompiledMode := g.mode rootId

def aliasScope (scope : String) : String := (g.classNameAliases.get? scope).getD scope

end CompiledGrammar

end SyntaxHighlight
