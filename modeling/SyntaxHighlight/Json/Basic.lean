/-! JSON values, with the entries of an object in the order in which they are written. -/
namespace SyntaxHighlight

inductive Json where
  | null
  | bool (b : Bool)
  | integer (n : Int)
  /-- A number that is not written as an integer. Nothing here is measured in such numbers. -/
  | real
  | string (s : String)
  | array (items : List Json)
  | object (entries : List (String × Json))
  /-- Where the text stops being JSON. What was read before it stands around it. -/
  | broken
deriving Inhabited, Repr

namespace Json

/-- The value of a key; the last one, if the key is repeated. -/
def get? : Json → String → Option Json
  | .object entries, key => (entries.reverse.find? fun e ↦ e.1 == key).map Prod.snd
  | _, _ => none

mutual

def isBroken : Json → Bool
  | .broken => true
  | .array items => anyBroken items
  | .object entries => entryBroken entries
  | _ => false

def anyBroken : List Json → Bool
  | [] => false
  | item :: items => item.isBroken || anyBroken items

def entryBroken : List (String × Json) → Bool
  | [] => false
  | (_, value) :: entries => value.isBroken || entryBroken entries

end

end Json

end SyntaxHighlight
