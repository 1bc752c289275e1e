import SyntaxHighlight.Unicode.Case

/-! Sets of characters, as character classes describe them. -/
namespace SyntaxHighlight.Regex

open Unicode

inductive Script where
  | latin | greek | cyrillic | armenian | georgian | hebrew | arabic | devanagari | thai
  | han | hiragana | katakana | hangul
deriving DecidableEq, Repr

def Script.table : Script → RangeTable
  | .latin => Unicode.latin
  | .greek => Unicode.greek
  | .cyrillic => Unicode.cyrillic
  | .armenian => Unicode.armenian
  | .georgian => Unicode.georgian
  | .hebrew => Unicode.hebrew
  | .arabic => Unicode.arabic
  | .devanagari => Unicode.devanagari
  | .thai => Unicode.thai
  | .han => Unicode.han
  | .hiragana => Unicode.hiragana
  | .katakana => Unicode.katakana
  | .hangul => Unicode.hangul

inductive Property where
  | any | assigned
  | alnum | alpha | ascii | blank | cntrl | digit | graph | lower | print | punct | space | upper
  | word | xdigit
  | letter | casedLetter | mark | number | punctuation | symbol | separator | other
  | inCategory (c : GeneralCategory)
  | inScript (s : Script)
deriving DecidableEq, Repr

def Property.contains : Property → Char → Bool
  | .any, _ => true
  | .assigned, c => category c != .cn
  | .alnum, c => isAlphabetic c || isDecimal c
  | .alpha, c => isAlphabetic c
  | .ascii, c => isAscii c
  | .blank, c => isBlank c
  | .cntrl, c => isControl c
  | .digit, c => isDecimal c
  | .graph, c => isGraph c
  | .lower, c => isLowercase c
  | .print, c => isPrint c
  | .punct, c => isPunctuation c
  | .space, c => isSpace c
  | .upper, c => isUppercase c
  | .word, c => isWord c
  | .xdigit, c => isHexDigit c
  | .letter, c => (category c).isLetter
  | .casedLetter, c => category c == .lu || category c == .ll || category c == .lt
  | .mark, c => (category c).isMark
  | .number, c => (category c).isNumber
  | .punctuation, c => (category c).isPunctuation
  | .symbol, c => (category c).isSymbol
  | .separator, c => (category c).isSeparator
  | .other, c => (category c).isOther
  | .inCategory g, c => category c == g
  | .inScript s, c => s.table.contains c.toNat

inductive CharSet where
  | empty
  | range (first last : Char)
  | property (p : Property)
  | union (a b : CharSet)
  | inter (a b : CharSet)
  | compl (a : CharSet)
  /-- The members and what equals a member up to case. -/
  | upToCase (a : CharSet)
deriving DecidableEq, Repr, Inhabited

def CharSet.contains : CharSet → Char → Bool
  | .empty, _ => false
  | .range first last, c => first ≤ c && c ≤ last
  | .property p, c => p.contains c
  | .union a b, c => a.contains c || b.contains c
  | .inter a b, c => a.contains c && b.contains c
  | .compl a, c => !a.contains c
  | .upToCase a, c => a.contains c || (caseVariants c).any a.contains

def CharSet.singleton (c : Char) : CharSet := .range c c

end SyntaxHighlight.Regex
