import SyntaxHighlight.Mode.Extension
import SyntaxHighlight.Tree.Step

/-! Grammars: the modes of a language and what holds for all of them. -/
namespace SyntaxHighlight

structure Grammar where
  name : String := ""
  aliases : List String := []
  caseInsensitive : Bool := false
  unicodeRegex : Bool := false
  disableAutodetect : Bool := false
  supersetOf : Option String := none
  keywords : Option Keywords := none
  contains : List (Entry Mode) := []
  illegal : Option Illegal := none
  /-- Names to write in place of scopes. -/
  classNameAliases : Dictionary String := .empty
  modes : Dictionary Mode := .empty
  extensions : List Extension := []
  /-- Writes the tree of any text, in place of a scan. -/
  emitTokens : Option Emission := none
deriving Inhabited

namespace Grammar

def plaintextName : String := "Plain text"

def plaintext : Grammar := { name := plaintextName, disableAutodetect := true }

def rootMode (g : Grammar) : Mode :=
  { keywords := g.keywords, contains := g.contains, illegal := g.illegal }

end Grammar

end SyntaxHighlight
