import SyntaxHighlight.Json.Basic

/-!
Structured data as it stands in a file, whichever notation it is written in. A reader that wants
text takes a bare word such as `5` or `true` for the text that it is; one that takes values of any
kind gets what the word means.
-/
namespace SyntaxHighlight

inductive Data where
  | null
  | bool (b : Bool)
  | integer (n : Int)
  | real
  | text (s : String)
  /-- A bare word that means something else than its text. -/
  | word (s : String) (value : Data)
  | list (items : List Data)
  | map (entries : List (Data × Data))
  /-- Where the file stops being well-formed. -/
  | broken
deriving Inhabited, Repr

namespace Data

mutual

def isBroken : Data → Bool
  | .broken => true
  | .list items => anyBroken items
  | .map entries => entryBroken entries
  | _ => false

def anyBroken : List Data → Bool
  | [] => false
  | item :: items => item.isBroken || anyBroken items

def entryBroken : List (Data × Data) → Bool
  | [] => false
  | (key, value) :: entries => key.isBroken || value.isBroken || entryBroken entries

end

def meaning : Data → Data
  | .word _ value => value
  | d => d

mutual

def ofJson : Json → Data
  | .null => .null
  | .bool b => .bool b
  | .integer n => .integer n
  | .real => .real
  | .string s => .text s
  | .array items => .list (ofJsonItems items)
  | .object entries => .map (ofJsonEntries entries)
  | .broken => .broken

def ofJsonItems : List Json → List Data
  | [] => []
  | item :: items => ofJson item :: ofJsonItems items

def ofJsonEntries : List (String × Json) → List (Data × Data)
  | [] => []
  | (key, value) :: entries => (.text key, ofJson value) :: ofJsonEntries entries

end

end Data

end SyntaxHighlight
