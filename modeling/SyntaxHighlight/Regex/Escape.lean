import SyntaxHighlight.Regex.CharSet
import SyntaxHighlight.Regex.Error
import SyntaxHighlight.Regex.Numeral

/-! Escapes that mean the same inside and outside of a character class. -/
namespace SyntaxHighlight.Regex

open Unicode

/-- The class that a letter after a backslash stands for. -/
def escapedClass? : Char → Option CharSet
  | 'w' => some (.property .word)
  | 'W' => some (.compl (.property .word))
  | 'd' => some (.property .digit)
  | 'D' => some (.compl (.property .digit))
  | 's' => some (.property .space)
  | 'S' => some (.compl (.property .space))
  | 'h' => some (.property .xdigit)
  | 'H' => some (.compl (.property .xdigit))
  | _ => none

/-- The control character that a letter after a backslash stands for, or the letter itself. -/
def escapedChar : Char → Char
  | 'n' => '\n'
  | 't' => '\t'
  | 'r' => '\r'
  | 'f' => '\x0c'
  | 'a' => '\x07'
  | 'b' => '\x08'
  | 'e' => '\x1b'
  | 'v' => '\x0b'
  | c => c

def charOfCode (code : Nat) : Except PatternError Char :=
  if 0x10ffff < code then throw .codePointTooBig
  else if 0xd800 ≤ code ∧ code < 0xe000 then throw .invalidCodePoint
  else pure (Char.ofNat code)

/-- The byte that an escape spells out: `xHH` in base 16, `OOO` in base 8. -/
def byteEscape? : List Char → Except PatternError (Option (Nat × List Char))
  | 'x' :: cs =>
    let (digits, rest) := spanAtMost isHexDigit 2 cs
    pure (some (numeralValue 16 digits, rest))
  | '0' :: cs =>
    let (digits, rest) := spanAtMost isOctalDigit 2 cs
    pure (some (numeralValue 8 digits, rest))
  | c :: cs =>
    if isOctalDigit c then
      let (digits, rest) := spanAtMost isOctalDigit 3 (c :: cs)
      let value := numeralValue 8 digits
      if 0xff < value then throw .numberTooBig else pure (some (value, rest))
    else pure none
  | [] => pure none

def followingBytes : Nat → List Char → Except PatternError (List Nat × List Char)
  | 0, cs => pure ([], cs)
  | n + 1, '\\' :: cs => do
    match ← byteEscape? cs with
    | some (byte, rest) =>
      let (bytes, rest) ← followingBytes n rest
      pure (byte :: bytes, rest)
    | none => throw .incompleteCharacter
  | _ + 1, _ => throw .incompleteCharacter

/-- The character that a byte written as an escape starts. -/
def charOfBytes (first : Nat) (cs : List Char) : Except PatternError (Char × List Char) := do
  let (bytes, rest) ← followingBytes (sequenceLength first - 1) cs
  match decodeBytes? (first :: bytes) with
  | some c => pure (c, rest)
  | none => throw .invalidCodePoint

/-- A code point: `x` with up to eight hexadecimal digits in braces, `o` with up to eleven octal
ones, `u` with four hexadecimal digits. -/
def codePointEscape? : List Char → Except PatternError (Option (Char × List Char))
  | 'x' :: '\x7b' :: cs => braced 16 isHexDigit isHexDigit 8 cs
  | 'o' :: '\x7b' :: cs => braced 8 isOctalDigit isAsciiDigit 11 cs
  | 'u' :: cs => do
    let (digits, rest) := spanAtMost isHexDigit 4 cs
    if digits.length < 4 then throw .tooFewDigits
    pure (some (← charOfCode (numeralValue 16 digits), rest))
  | _ => pure none
where
  braced (base : Nat) (p more : Char → Bool) (most : Nat) (cs : List Char) :
      Except PatternError (Option (Char × List Char)) :=
    match spanAtMost p most cs with
    | ([], _) => pure none
    | (digits, '\x7d' :: rest) => do pure (some (← charOfCode (numeralValue base digits), rest))
    | (_, c :: _) => if more c then throw .codePointTooLong else pure none
    | (_, []) => pure none

/-- A character that is typed with another one: `cX` and `C-X` for a control character, `M-X` for
one with the eighth bit set. Any other character stands for itself or for what `escapedChar`
says. -/
def typedChar : Nat → List Char → Except PatternError (Char × List Char)
  | 0, _ | _, [] => throw .endAtEscape
  | fuel + 1, 'M' :: cs =>
    match cs with
    | [] | ['-'] => throw .endAtMeta
    | '-' :: cs => do
      let (c, rest) ← operand fuel cs
      pure (Char.ofNat (c.toNat % 128 + 128), rest)
    | _ => throw .metaForm
  | fuel + 1, 'C' :: cs =>
    match cs with
    | [] => throw .endAtControl
    | '-' :: cs => control fuel cs
    | _ => throw .controlForm
  | fuel + 1, 'c' :: cs => control fuel cs
  | _, c :: cs => pure (escapedChar c, cs)
where
  operand (fuel : Nat) : List Char → Except PatternError (Char × List Char)
    | '\\' :: cs => typedChar fuel cs
    | c :: cs => pure (c, cs)
    | [] => throw .endAtEscape
  control (fuel : Nat) : List Char → Except PatternError (Char × List Char)
    | [] => throw .endAtControl
    | '?' :: rest => pure ('\x7f', rest)
    | cs => do
      let (c, rest) ← operand fuel cs
      pure (Char.ofNat (c.toNat % 32 + c.toNat / 128 % 2 * 128), rest)

/-- A character after a backslash, as bytes or as it is typed. -/
def spelledChar (cs : List Char) : Except PatternError (Char × List Char) := do
  match ← byteEscape? cs with
  | some (byte, rest) => charOfBytes byte rest
  | none => typedChar cs.length cs

/-- Property names as they are compared: without blanks, hyphens and underscores, in small
letters. -/
def normalizedName (name : List Char) : String :=
  String.ofList
    ((name.filter fun c ↦ c != ' ' && c != '-' && c != '_').map fun c ↦ simpleFold c)

def propertyNames : List (String × Property) :=
  [("any", .any), ("assigned", .assigned), ("alnum", .alnum), ("alpha", .alpha),
    ("alphabetic", .alpha), ("ascii", .ascii), ("blank", .blank), ("cntrl", .cntrl),
    ("digit", .digit), ("graph", .graph), ("lower", .lower), ("lowercase", .lower),
    ("print", .print), ("punct", .punctuation), ("posixpunct", .punct), ("space", .space),
    ("whitespace", .space), ("upper", .upper), ("uppercase", .upper), ("word", .word),
    ("xdigit", .xdigit), ("asciihexdigit", .xdigit),
    ("l", .letter), ("letter", .letter), ("lc", .casedLetter), ("casedletter", .casedLetter),
    ("m", .mark), ("mark", .mark), ("combiningmark", .mark), ("n", .number),
    ("number", .number), ("p", .punctuation), ("punctuation", .punctuation),
    ("s", .symbol), ("symbol", .symbol), ("z", .separator), ("separator", .separator),
    ("c", .other), ("other", .other),
    ("lu", .inCategory .lu), ("uppercaseletter", .inCategory .lu), ("ll", .inCategory .ll),
    ("lowercaseletter", .inCategory .ll), ("lt", .inCategory .lt),
    ("titlecaseletter", .inCategory .lt), ("lm", .inCategory .lm),
    ("modifierletter", .inCategory .lm), ("lo", .inCategory .lo),
    ("otherletter", .inCategory .lo), ("mn", .inCategory .mn),
    ("nonspacingmark", .inCategory .mn), ("mc", .inCategory .mc),
    ("spacingmark", .inCategory .mc), ("me", .inCategory .me),
    ("enclosingmark", .inCategory .me), ("nd", .inCategory .nd),
    ("decimalnumber", .inCategory .nd), ("nl", .inCategory .nl),
    ("letternumber", .inCategory .nl), ("no", .inCategory .no),
    ("othernumber", .inCategory .no), ("pc", .inCategory .pc),
    ("connectorpunctuation", .inCategory .pc), ("pd", .inCategory .pd),
    ("dashpunctuation", .inCategory .pd), ("ps", .inCategory .ps),
    ("openpunctuation", .inCategory .ps), ("pe", .inCategory .pe),
    ("closepunctuation", .inCategory .pe), ("pi", .inCategory .pi),
    ("initialpunctuation", .inCategory .pi), ("pf", .inCategory .pf),
    ("finalpunctuation", .inCategory .pf), ("po", .inCategory .po),
    ("otherpunctuation", .inCategory .po), ("sm", .inCategory .sm),
    ("mathsymbol", .inCategory .sm), ("sc", .inCategory .sc),
    ("currencysymbol", .inCategory .sc), ("sk", .inCategory .sk),
    ("modifiersymbol", .inCategory .sk), ("so", .inCategory .so),
    ("othersymbol", .inCategory .so), ("zs", .inCategory .zs),
    ("spaceseparator", .inCategory .zs), ("zl", .inCategory .zl),
    ("lineseparator", .inCategory .zl), ("zp", .inCategory .zp),
    ("paragraphseparator", .inCategory .zp), ("cc", .inCategory .cc),
    ("control", .inCategory .cc), ("cf", .inCategory .cf), ("format", .inCategory .cf),
    ("cs", .inCategory .cs), ("surrogate", .inCategory .cs), ("co", .inCategory .co),
    ("privateuse", .inCategory .co), ("cn", .inCategory .cn), ("unassigned", .inCategory .cn),
    ("latin", .inScript .latin), ("latn", .inScript .latin), ("greek", .inScript .greek),
    ("grek", .inScript .greek), ("cyrillic", .inScript .cyrillic),
    ("cyrl", .inScript .cyrillic), ("armenian", .inScript .armenian),
    ("armn", .inScript .armenian), ("georgian", .inScript .georgian),
    ("geor", .inScript .georgian), ("hebrew", .inScript .hebrew), ("hebr", .inScript .hebrew),
    ("arabic", .inScript .arabic), ("arab", .inScript .arabic),
    ("devanagari", .inScript .devanagari), ("deva", .inScript .devanagari),
    ("thai", .inScript .thai), ("han", .inScript .han), ("hani", .inScript .han),
    ("hiragana", .inScript .hiragana), ("hira", .inScript .hiragana),
    ("katakana", .inScript .katakana), ("kana", .inScript .katakana),
    ("hangul", .inScript .hangul), ("hang", .inScript .hangul)]

/-- The set of a property, from its name on. Where the source ends too soon, its last character is
not counted as part of the name. -/
def namedProperty (negated : Bool) (cs : List Char) : Except PatternError (CharSet × List Char) :=
  let (name, rest) := cs.span fun c ↦
    !(['\x28', '\x29', '\x7b', '\x7c', '\x7d'].contains c)
  match rest with
  | '\x7d' :: rest =>
    match propertyNames.lookup (normalizedName name) with
    | some p => pure (if negated then .compl (.property p) else .property p, rest)
    | none => throw (.unknownProperty (String.ofList name))
  | [] => throw (.unknownProperty (String.ofList name.dropLast))
  | _ => throw (.unknownProperty (String.ofList name))

/-- The set of a property, from what follows its opening brace. A circumflex, and a capital letter
before the brace, each take the complement. -/
def propertyClass (negated : Bool) : List Char → Except PatternError (CharSet × List Char)
  | '^' :: cs => namedProperty (!negated) cs
  | cs => namedProperty negated cs

/-- The set of a property, if a letter `p` or `P` and a brace follow a backslash. -/
def escapedProperty? : List Char → Except PatternError (Option (CharSet × List Char))
  | c :: '\x7b' :: rest =>
    if c = 'p' ∨ c = 'P' then some <$> propertyClass (c = 'P') rest else pure none
  | _ => pure none

end SyntaxHighlight.Regex
