import SyntaxHighlight.Tree.Basic
import SyntaxHighlight.Text.Quoted

/-! Trees on one line, scopes in parentheses and texts in quotes. -/
namespace SyntaxHighlight.Sexp

mutual

/-- The words of a node, in order. A closing parenthesis is a word of its own. -/
def words : Tree → List String
  | .text s => [Text.quoted s]
  | .scope name children => ("(" ++ name.getD "_") :: (wordsOfAll children ++ [")"])

def wordsOfAll : List Tree → List String
  | [] => []
  | t :: ts => words t ++ wordsOfAll ts

end

/-- Words are set apart by a blank, but a parenthesis closes right after the word before it. -/
def joinWords : String → List String → String
  | out, [] => out
  | out, word :: rest =>
    joinWords (if out.isEmpty || word == ")" then out ++ word else out ++ " " ++ word) rest

/-- The children of a root; the root itself is not written. -/
def render : Tree → String
  | .scope _ children => joinWords "" (wordsOfAll children)
  | .text s => Text.quoted s

end SyntaxHighlight.Sexp
