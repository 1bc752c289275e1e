import SyntaxHighlight.Unicode.Category
import SyntaxHighlight.Unicode.CodePointSets

/-!
Character classes. ASCII is answered without the tables; beyond it a class is put together from
the general category and the sets that complete it.
-/
namespace SyntaxHighlight.Unicode

def GeneralCategory.isLetter : GeneralCategory → Bool
  | .lu | .ll | .lt | .lm | .lo => true
  | _ => false

def GeneralCategory.isMark : GeneralCategory → Bool
  | .mn | .mc | .me => true
  | _ => false

def GeneralCategory.isNumber : GeneralCategory → Bool
  | .nd | .nl | .no => true
  | _ => false

def GeneralCategory.isPunctuation : GeneralCategory → Bool
  | .pc | .pd | .ps | .pe | .pi | .pf | .po => true
  | _ => false

def GeneralCategory.isSymbol : GeneralCategory → Bool
  | .sm | .sc | .sk | .so => true
  | _ => false

def GeneralCategory.isSeparator : GeneralCategory → Bool
  | .zs | .zl | .zp => true
  | _ => false

def GeneralCategory.isOther : GeneralCategory → Bool
  | .cc | .cf | .cs | .co | .cn => true
  | _ => false

def category (c : Char) : GeneralCategory := categoryOf c.toNat

def isAsciiUpper (c : Char) : Bool := 'A' ≤ c && c ≤ 'Z'

def isAsciiLower (c : Char) : Bool := 'a' ≤ c && c ≤ 'z'

def isAsciiDigit (c : Char) : Bool := '0' ≤ c && c ≤ '9'

def isAsciiLetter (c : Char) : Bool := isAsciiUpper c || isAsciiLower c

def isAscii (c : Char) : Bool := c.toNat < 0x80

def isHexDigit (c : Char) : Bool :=
  isAsciiDigit c || ('a' ≤ c && c ≤ 'f') || ('A' ≤ c && c ≤ 'F')

def isAlphabetic (c : Char) : Bool :=
  if isAscii c then isAsciiLetter c
  else
    let category := category c
    category.isLetter || category == .nl || otherAlphabetic.contains c.toNat

def isUppercase (c : Char) : Bool :=
  if isAscii c then isAsciiUpper c else category c == .lu || otherUppercase.contains c.toNat

def isLowercase (c : Char) : Bool :=
  if isAscii c then isAsciiLower c else category c == .ll || otherLowercase.contains c.toNat

def isDecimal (c : Char) : Bool :=
  if isAscii c then isAsciiDigit c else category c == .nd

/-- Letters, marks, decimal digits and connectors such as the underscore. -/
def isWord (c : Char) : Bool :=
  if isAscii c then isAsciiLetter c || isAsciiDigit c || c == '_'
  else
    let category := category c
    category.isLetter || category.isMark || category == .nd || category == .nl ||
      category == .pc || otherAlphabetic.contains c.toNat

def isSpace (c : Char) : Bool :=
  if isAscii c then c == ' ' || ('\t' ≤ c && c ≤ '\r')
  else c == '\x85' || (category c).isSeparator

def isBlank (c : Char) : Bool := c == '\t' || c == ' ' || (!isAscii c && category c == .zs)

def isControl (c : Char) : Bool := category c == .cc

/-- Punctuation, and the ASCII symbols that are punctuation outside Unicode. -/
def isPunctuation (c : Char) : Bool :=
  (category c).isPunctuation || (isAscii c && (category c).isSymbol)

def isGraph (c : Char) : Bool :=
  !isSpace c && category c != .cc && category c != .cn && category c != .cs

def isPrint (c : Char) : Bool := isGraph c || category c == .zs

def isCased (c : Char) : Bool := isUppercase c || isLowercase c || category c == .lt

/-- Characters that casing looks past when it looks for the next cased one. -/
def isCaseIgnorable (c : Char) : Bool :=
  match category c with
  | .mn | .me | .cf | .lm | .sk => true
  | _ => otherCaseIgnorable.contains c.toNat

def extendsGrapheme (c : Char) : Bool :=
  match category c with
  | .mn | .me => true
  | _ => otherGraphemeExtend.contains c.toNat

end SyntaxHighlight.Unicode
