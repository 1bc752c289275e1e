import SyntaxHighlight.Text.Fields
import SyntaxHighlight.Tree.Basic

/-! Trees as HTML: a span with a class for every scope, and escaped text. -/
namespace SyntaxHighlight.Html

def escapeChar (c : Char) : List Char :=
  if c = '&' then "&amp;".toList
  else if c = '<' then "&lt;".toList
  else if c = '>' then "&gt;".toList
  else if c = '\x22' then "&quot;".toList
  else if c = '\x27' then "&#x27;".toList
  else [c]

def escape (s : String) : String := String.ofList (s.toList.flatMap escapeChar)

def defaultClassPrefix : String := "hljs-"

/-- Each part with as many underscores as it has parts before it. -/
def underscored : Nat → List (List Char) → List Char
  | _, [] => []
  | n, part :: parts => ' ' :: (part ++ List.replicate n '_') ++ underscored (n + 1) parts

/-- What follows the mark of an embedded language. -/
def languageOf? (scope : List Char) : Option (List Char) :=
  let mark := "language:".toList
  bif mark.isPrefixOf scope then some (scope.drop mark.length) else none

/-- The classes of a scope: one for the part before the first dot, and one for each part after it,
which tells its depth. -/
def scopeClass (classPrefix : String) (scope : String) : String :=
  match languageOf? scope.toList with
  | some language => "language-" ++ String.ofList language
  | none =>
    match Text.fields '.' scope.toList with
    | head :: parts => classPrefix ++ String.ofList (head ++ underscored 1 parts)
    | [] => classPrefix

def piece (classPrefix : String) : TreeEvent → String
  | .text s => escape s
  | .opens (some scope) => "<span class=\"" ++ scopeClass classPrefix scope ++ "\">"
  | .closes (some _) => "</span>"
  | .opens none | .closes none => ""

def render (classPrefix : String) (t : Tree) : String :=
  String.join (t.walk.map (piece classPrefix))

end SyntaxHighlight.Html
