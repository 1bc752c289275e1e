import SyntaxHighlight.Dictionary
import SyntaxHighlight.Text.Fields

/-! How a grammar declares its keywords. -/
namespace SyntaxHighlight

/-- Words in one text, set apart by white space, or in a list. -/
inductive WordList where
  | text (s : String)
  | items (words : List String)
deriving DecidableEq, Repr, Inhabited

def WordList.words : WordList → List String
  | .text s => Text.words s
  | .items words => words

/-- The keywords of a mode, without a scope of their own or listed by scope. -/
inductive Keywords where
  | plain (words : WordList)
  | scoped (groups : Dictionary WordList)
deriving DecidableEq, Repr, Inhabited

namespace Keywords

def defaultScope : String := "keyword"

/-- The name under which a listing by scope holds the pattern that finds words. -/
def patternName : String := "$pattern"

/-- Finds words where no pattern is given. -/
def defaultPattern : String := "\\w+"

/-- The words by scope, the pattern among them. -/
def entries : Keywords → Dictionary WordList
  | .plain words => ⟨[(defaultScope, words)]⟩
  | .scoped groups => groups

def withPattern (pattern : String) (k : Keywords) : Keywords :=
  .scoped (k.entries.insert patternName (.text pattern))

/-- The pattern that finds words, if one is given. Of a list it is the first item. -/
def pattern? : Keywords → Option String
  | .plain _ => none
  | .scoped groups =>
    match groups.get? patternName with
    | some (.text s) => some s
    | some (.items words) => words.head?
    | none => none

/-- Each entry with its scope, in the order in which they are declared. -/
def words (k : Keywords) : List (String × String) :=
  let groups := match k with
    | .plain words => [(defaultScope, words)]
    | .scoped groups => groups.entries.filter (·.1 ≠ patternName)
  groups.flatMap fun (scope, list) ↦ list.words.map fun word ↦ (scope, word)

end Keywords

end SyntaxHighlight
