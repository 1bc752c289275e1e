import SyntaxHighlight.Grammar.Compiled
import SyntaxHighlight.Tree.Html

/-! What a scan starts from, what it hands back, and why it may stop early. -/
namespace SyntaxHighlight

/-- What tells compiled grammars apart. -/
inductive GrammarId where
  | registered (number : Nat)
  /-- The one grammar that takes the place of all broken ones. -/
  | substitute
deriving DecidableEq, Repr, Inhabited

/-- A compiled grammar that is known to a registry. -/
structure LoadedGrammar where
  id : GrammarId
  grammar : CompiledGrammar
deriving Inhabited

/-- An open mode, with what its callbacks have noted. -/
structure Frame where
  mode : Nat
  notes : Scratch := .empty
deriving DecidableEq, Repr, Inhabited

/-- Where the scan of a text stopped, so that the scan of a later one may go on with the same modes
open. The innermost mode comes first. -/
structure Continuation where
  grammar : GrammarId
  stack : List Frame
deriving DecidableEq, Repr, Inhabited

inductive HighlightError where
  | unknownLanguage (name : String)
  | grammar (language : String) (cause : GrammarError)
  | zeroWidthMatch (language rule : String)
  | runawayLoop (language : String) (iterations : Nat)
  /-- Languages are embedded in each other without end. -/
  | endlessEmbedding
deriving DecidableEq, Repr, Inhabited

def HighlightError.message : HighlightError → String
  | .unknownLanguage name => "Unknown language: \"" ++ name ++ "\""
  | .grammar language cause =>
    "Language definition for \x27" ++ language ++ "\x27 could not be compiled: " ++ cause.message
  | .zeroWidthMatch language rule => "0 width match regex (" ++ language ++ ") in rule " ++ rule
  | .runawayLoop language iterations =>
    "potential infinite loop in " ++ language ++ ", way more iterations than matches (" ++
      toString iterations ++ ")"
  | .endlessEmbedding => "languages are embedded without end"

inductive ScanError where
  /-- Illegal text at a byte offset, within a mode. -/
  | illegal (message : String) (offset : Nat) (mode : String)
  /-- An end matched nothing where its mode had begun. -/
  | zeroWidth (rule : String)
  | runaway (iterations : Nat)
  /-- The rules that stay in play after a rejected one do not make up a pattern. -/
  | pattern (cause : GrammarError)
  | embedded (cause : HighlightError)
  | endlessEmbedding
deriving DecidableEq, Repr, Inhabited

def ScanError.message : ScanError → String
  | .illegal message _ _ => message
  | .zeroWidth rule => "0 width match regex in rule " ++ rule
  | .runaway iterations =>
    "potential infinite loop, way more iterations than matches (" ++ toString iterations ++ ")"
  | .pattern cause => cause.message
  | .embedded cause => cause.message
  | .endlessEmbedding => "languages are embedded without end"

structure ScanOptions where
  ignoreIllegals : Bool
  safeMode : Bool
  maxIterations : Nat
  maxKeywordHits : Nat
deriving DecidableEq, Repr, Inhabited

structure ScanOutput where
  tree : Tree
  relevance : Nat
  continuation : Continuation
deriving Inhabited

structure IllegalText where
  message : String
  offset : Nat
  context : String
  mode : String
deriving DecidableEq, Repr, Inhabited

structure HighlightResult where
  /-- None for a text of no language. -/
  language : Option String
  relevance : Nat
  value : String
  illegal : Bool := false
  code : String
  illegalBy : Option IllegalText := none
  errorRaised : Option String := none
  tree : Tree
  continuation : Option Continuation := none
deriving Inhabited

def HighlightResult.plaintext (code : String) : HighlightResult :=
  { language := none, relevance := 0, value := Html.escape code, code, tree := .leaf code }

/-- What a scan needs to know of the languages that a text may embed. -/
structure Languages where
  isKnown : String → Bool
  /-- A text in a language, as a continuation of an earlier one. -/
  highlight : String → String → Option Continuation → Except HighlightError HighlightResult
  /-- A text in the best of some languages, of all if none are given. -/
  detect : String → List String → Except HighlightError HighlightResult

end SyntaxHighlight
