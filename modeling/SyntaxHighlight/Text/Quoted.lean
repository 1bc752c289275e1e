import SyntaxHighlight.Unicode.Properties

/-!
Text in double quotes on a single line. What cannot be told apart or not be seen on its own is
written as an escape.
-/
namespace SyntaxHighlight.Text

open Unicode

/-- Characters shown as they are: neither control, format nor separator, and no mark that attaches
to the character before it. -/
def isShown (c : Char) : Bool :=
  if isAscii c then ' ' ≤ c && c ≤ '~'
  else !(category c).isOther && !(category c).isSeparator && !extendsGrapheme c

def hexDigits (n : Nat) : List Char := Nat.toDigits 16 n

def quotedForm (c : Char) : List Char :=
  if c = '\x00' then ['\\', '0']
  else if c = '\t' then ['\\', 't']
  else if c = '\r' then ['\\', 'r']
  else if c = '\n' then ['\\', 'n']
  else if c = '\x22' then ['\\', '\x22']
  else if c = '\\' then ['\\', '\\']
  else if isShown c then [c]
  else ['\\', 'u', '\x7b'] ++ hexDigits c.toNat ++ ['\x7d']

def quotedChars (cs : List Char) : List Char := '\x22' :: (cs.flatMap quotedForm ++ ['\x22'])

def quoted (s : String) : String := String.ofList (quotedChars s.toList)

end SyntaxHighlight.Text
