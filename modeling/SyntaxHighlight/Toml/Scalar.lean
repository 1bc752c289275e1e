import SyntaxHighlight.Text.Numeral

/-! Texts in TOML, and what stands between values. -/
namespace SyntaxHighlight.Toml

open Unicode

def isBlank (c : Char) : Bool := c == ' ' || c == '\t'

def skipBlanks (cs : List Char) : List Char := cs.dropWhile isBlank

/-- Characters that may stand in texts and comments, line breaks apart. -/
def isPlain (c : Char) : Bool := c == '\t' || (' ' ≤ c && c != '\x7f')

def lineBreak? : List Char → Option (List Char)
  | '\n' :: rest => some rest
  | '\r' :: '\n' :: rest => some rest
  | _ => none

def skipComment (cs : List Char) : List Char :=
  match cs with
  | '#' :: rest => rest.dropWhile isPlain
  | _ => cs

/-- Past blanks, comments and line breaks. -/
def skipLines : Nat → List Char → List Char
  | 0, cs => cs
  | fuel + 1, cs =>
    let cs := skipComment (skipBlanks cs)
    match lineBreak? cs with
    | some rest => skipLines fuel rest
    | none => cs

/-- A character given by its number in so many hexadecimal digits. -/
def hexEscape? (length : Nat) (cs : List Char) : Option (Char × List Char) :=
  let digits := cs.take length
  let n := numeralValue 16 digits
  if digits.length = length ∧ digits.all isHexDigit ∧ n.isValidChar then
    some (Char.ofNat n, cs.drop length)
  else none

/-- The character that an escape stands for, from what follows the backslash. -/
def escape? : List Char → Option (Char × List Char)
  | 'b' :: rest => some ('\x08', rest)
  | 't' :: rest => some ('\t', rest)
  | 'n' :: rest => some ('\n', rest)
  | 'f' :: rest => some ('\x0c', rest)
  | 'r' :: rest => some ('\r', rest)
  | '\x22' :: rest => some ('\x22', rest)
  | '\\' :: rest => some ('\\', rest)
  | 'u' :: rest => hexEscape? 4 rest
  | 'U' :: rest => hexEscape? 8 rest
  | _ => none

def skipBreaks : Nat → List Char → List Char
  | 0, cs => cs
  | fuel + 1, cs =>
    let cs := skipBlanks cs
    match lineBreak? cs with
    | some rest => skipBreaks fuel rest
    | none => cs

/-- What follows a backslash at the end of a line. The blank lines after it do not count. -/
def afterEscapedBreak? (cs : List Char) : Option (List Char) :=
  (lineBreak? (skipBlanks cs)).map fun rest ↦ skipBreaks (rest.length + 1) rest

/-- The characters of a text on one line, last first, up to its closing quote. Between single
quotes there are no escapes. -/
def lineText (quote : Char) : Nat → List Char → List Char → Option (List Char × List Char)
  | 0, _, _ => none
  | fuel + 1, read, cs =>
    match cs with
    | [] => none
    | c :: rest =>
      if c = quote then some (read, rest)
      else if c = '\\' ∧ quote = '\x22' then do
        let (c, rest) ← escape? rest
        lineText quote fuel (c :: read) rest
      else if isPlain c then lineText quote fuel (c :: read) rest
      else none

/-- The characters of a text on several lines, last first, up to its three closing quotes. Two
quotes more may stand right before these. -/
def linesText (quote : Char) : Nat → List Char → List Char → Option (List Char × List Char)
  | 0, _, _ => none
  | fuel + 1, read, cs =>
    match cs with
    | [] => none
    | c :: rest =>
      if c = quote then
        let quotes := min 5 (cs.takeWhile (· == quote)).length
        if 3 ≤ quotes then some (List.replicate (quotes - 3) quote ++ read, cs.drop quotes)
        else linesText quote fuel (quote :: read) rest
      else if c = '\\' ∧ quote = '\x22' then
        match afterEscapedBreak? rest with
        | some rest => linesText quote fuel read rest
        | none => do
          let (c, rest) ← escape? rest
          linesText quote fuel (c :: read) rest
      else if isPlain c then linesText quote fuel (c :: read) rest
      else do
        let rest ← lineBreak? cs
        linesText quote fuel ('\n' :: read) rest

/-- A text on one line, from its opening quote. -/
def lineText? (cs : List Char) : Option (String × List Char) :=
  match cs with
  | quote :: rest =>
    if quote = '\x22' ∨ quote = '\x27' then
      (lineText quote (rest.length + 1) [] rest).map fun (read, rest) ↦
        (String.ofList read.reverse, rest)
    else none
  | [] => none

/-- A text, from its opening quote or its three opening quotes. A line break right after those does
not belong to the text. -/
def text? (cs : List Char) : Option (String × List Char) :=
  match cs with
  | a :: b :: c :: rest =>
    if a = b ∧ b = c ∧ (a = '\x22' ∨ a = '\x27') then
      let rest := (lineBreak? rest).getD rest
      (linesText a (rest.length + 1) [] rest).map fun (read, rest) ↦
        (String.ofList read.reverse, rest)
    else lineText? cs
  | _ => lineText? cs

end SyntaxHighlight.Toml
