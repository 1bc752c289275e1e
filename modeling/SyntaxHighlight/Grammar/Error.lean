/-! Why a grammar cannot be compiled. -/
namespace SyntaxHighlight

inductive GrammarError where
  | matchWithBeginEnd
  | beforeMatchWithStarts
  | multiCapture (reason : String)
  | selfAtTopLevel
  | unknownModeRef (name : String)
  | invalidMarker (text : String)
  | invalidPattern (pattern message : String)
  | factoryFailed (message : String)
  | extensionFailed (message : String)
  /-- Modes are placed one within another without end. -/
  | endlessNesting
deriving DecidableEq, Repr, Inhabited

def GrammarError.message : GrammarError → String
  | .matchWithBeginEnd => "begin & end are not supported with match"
  | .beforeMatchWithStarts => "beforeMatch cannot be used with starts"
  | .multiCapture reason => "Invalid multi-capture scope: " ++ reason
  | .selfAtTopLevel => "contains \x60self\x60 is not supported at the top-level of a language"
  | .unknownModeRef name => "Unknown mode reference '" ++ name ++ "'"
  | .invalidMarker text => "Unknown contains marker '" ++ text ++ "' (only 'self' is allowed)"
  | .invalidPattern pattern message => "Invalid pattern /" ++ pattern ++ "/: " ++ message
  | .factoryFailed message => "Grammar factory failed: " ++ message
  | .extensionFailed message => "Compiler extension failed: " ++ message
  | .endlessNesting => "modes are nested without end"

end SyntaxHighlight
