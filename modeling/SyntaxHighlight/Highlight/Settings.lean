import SyntaxHighlight.Keyword.Table
import SyntaxHighlight.Tree.Html

/-! What an application may choose. -/
namespace SyntaxHighlight

structure Settings where
  /-- Fall back to plain text where a scan fails. -/
  safeMode : Bool := true
  classPrefix : String := Html.defaultClassPrefix
  maxKeywordHits : Nat := KeywordScoring.standardMaxHits
  commonKeywords : List String :=
    ["and", "for", "if", "in", "list", "not", "of", "or", "parent", "then", "value"]
  maxIterations : Nat := 100000
  autodetectIgnoreIllegals : Bool := true
  /-- The languages to choose from when none is named; all if there are none here. -/
  languages : List String := []
deriving DecidableEq, Repr, Inhabited

def Settings.scoring (s : Settings) : KeywordScoring :=
  .ofWords s.commonKeywords s.maxKeywordHits

end SyntaxHighlight
