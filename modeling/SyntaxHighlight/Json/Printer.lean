import SyntaxHighlight.Json.Basic

/-! Writing JSON: on one line, or an entry a line, indented by two blanks a level. -/
namespace SyntaxHighlight.Json

def hexDigit (n : Nat) : Char := "0123456789abcdef".toList.getD n '0'

def escapedForm (c : Char) : List Char :=
  if c = '\x22' then ['\\', '\x22']
  else if c = '\\' then ['\\', '\\']
  else if c = '\n' then ['\\', 'n']
  else if c = '\r' then ['\\', 'r']
  else if c = '\t' then ['\\', 't']
  else if c = '\x08' then ['\\', 'b']
  else if c = '\x0c' then ['\\', 'f']
  else if c.toNat < 0x20 then
    ['\\', 'u', '0', '0', hexDigit (c.toNat / 16), hexDigit (c.toNat % 16)]
  else [c]

def quoted (s : String) : String := "\"" ++ String.ofList (s.toList.flatMap escapedForm) ++ "\""

mutual

def compactOnto (out : String) : Json → String
  | .null => out ++ "null"
  | .bool true => out ++ "true"
  | .bool false => out ++ "false"
  | .integer n => out ++ toString n
  | .real | .broken => out ++ "null"
  | .string s => out ++ quoted s
  | .array items => compactItems (out ++ "[") items ++ "]"
  | .object entries => compactEntries (out ++ "\x7b") entries ++ "\x7d"

def compactItems (out : String) : List Json → String
  | [] => out
  | [item] => item.compactOnto out
  | item :: items => compactItems (item.compactOnto out ++ ",") items

def compactEntries (out : String) : List (String × Json) → String
  | [] => out
  | [(key, v)] => v.compactOnto (out ++ quoted key ++ ":")
  | (key, v) :: entries => compactEntries (v.compactOnto (out ++ quoted key ++ ":") ++ ",") entries

end

def compact (v : Json) : String := v.compactOnto ""

mutual

/-- A text with a value written at its end, further lines indented by `indent`. -/
def prettyOnto (indent out : String) : Json → String
  | .array (item :: items) =>
    prettyItems (indent ++ "  ") (out ++ "[\n") (item :: items) ++ "\n" ++ indent ++ "]"
  | .object (entry :: entries) =>
    prettyEntries (indent ++ "  ") (out ++ "\x7b\n") (entry :: entries) ++ "\n" ++ indent ++
      "\x7d"
  | v => v.compactOnto out

def prettyItems (indent out : String) : List Json → String
  | [] => out
  | [item] => item.prettyOnto indent (out ++ indent)
  | item :: items => prettyItems indent (item.prettyOnto indent (out ++ indent) ++ ",\n") items

def prettyEntries (indent out : String) : List (String × Json) → String
  | [] => out
  | [(key, v)] => v.prettyOnto indent (out ++ indent ++ quoted key ++ ": ")
  | (key, v) :: entries =>
    prettyEntries indent (v.prettyOnto indent (out ++ indent ++ quoted key ++ ": ") ++ ",\n")
      entries

end

def pretty (v : Json) : String := v.prettyOnto "" ""

end SyntaxHighlight.Json
