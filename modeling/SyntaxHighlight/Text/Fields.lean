import SyntaxHighlight.Unicode.Properties

/-! Texts cut at a character, or at white space. -/
namespace SyntaxHighlight.Text

/-- The parts of a text between the occurrences of a character. There is always one. -/
def fields (separator : Char) : List Char → List (List Char)
  | [] => [[]]
  | c :: cs =>
    if c = separator then [] :: fields separator cs
    else
      match fields separator cs with
      | part :: parts => (c :: part) :: parts
      | [] => [[c]]

/-- The stretches of a text that are free of white space, none of them empty. `word` is the part
of the first that has been read, last character first. -/
def wordsAfter (word : List Char) : List Char → List (List Char)
  | [] => if word.isEmpty then [] else [word.reverse]
  | c :: cs =>
    if Unicode.isSpace c then
      if word.isEmpty then wordsAfter [] cs else word.reverse :: wordsAfter [] cs
    else wordsAfter (c :: word) cs

def words (s : String) : List String := (wordsAfter [] s.toList).map String.ofList

end SyntaxHighlight.Text
