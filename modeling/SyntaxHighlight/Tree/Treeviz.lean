import SyntaxHighlight.Tree.Basic
import SyntaxHighlight.Text.Quoted

/-! Trees drawn with lines, one node a line. -/
namespace SyntaxHighlight.Treeviz

/-- The most characters of a text that are shown, quotes included. -/
def longestLabel : Nat := 30

def shortened (cs : List Char) : List Char :=
  if longestLabel < cs.length then cs.take longestLabel ++ "...".toList else cs

def label : Tree → String
  | .text s => "◦ " ++ String.ofList (shortened (Text.quotedChars s.toList))
  | .scope name _ => "● " ++ name.getD "(anonymous)"

def connector (last : Bool) : String := if last then "└─" else "├─"

/-- What stands below a node's connector in the lines of its children. -/
def guide (last : Bool) : String := if last then "  " else "│ "

mutual

/-- The lines of a node whose line starts with `margin`. -/
def nodeLines (margin : String) (last : Bool) : Tree → List String
  | .text s => [margin ++ connector last ++ " " ++ label (.text s)]
  | .scope name children =>
    (margin ++ connector last ++ " " ++ label (.scope name [])) ::
      childLines (margin ++ guide last) children

def childLines (margin : String) : List Tree → List String
  | [] => []
  | t :: ts => nodeLines margin ts.isEmpty t ++ childLines margin ts

end

def lines : Tree → List String
  | .scope _ children => "⧉ document" :: childLines "" children
  | .text _ => ["⧉ document"]

def render (t : Tree) : String := String.join ((lines t).map fun line ↦ line ++ "\n")

end SyntaxHighlight.Treeviz
