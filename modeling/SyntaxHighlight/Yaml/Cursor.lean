import SyntaxHighlight.Text.Numeral

/-! Reading a YAML text character by character, with the line and the column in hand. -/
namespace SyntaxHighlight.Yaml

def isBreak (c : Char) : Bool :=
  c == '\n' || c == '\r' || c == '\x85' || c == '\u2028' || c == '\u2029'

def isBlank (c : Char) : Bool := c == ' ' || c == '\t'

/-- Characters that may stand in a text. -/
def isAllowed (c : Char) : Bool :=
  c == '\t' || c == '\n' || c == '\r' || (' ' ≤ c && c ≤ '~') || c == '\x85' ||
    ('\u00a0' ≤ c && c != '\ufeff' && c != '\ufffe' && c != '\uffff')

structure Cursor where
  rest : List Char
  line : Nat := 0
  column : Nat := 0
  index : Nat := 0
deriving Inhabited

namespace Cursor

variable (c : Cursor)

def peek? : Option Char := c.rest.head?

def peekAt? (i : Nat) : Option Char := c.rest[i]?

def isAt (x : Char) : Bool := c.peek? == some x

def atEnd : Bool := c.rest.isEmpty

def atBlank : Bool := c.peek?.any isBlank

def atBreak : Bool := c.peek?.any isBreak

/-- Whether a blank, a break or the end is `i` characters ahead. -/
def blankAt (i : Nat) : Bool := (c.peekAt? i).all fun x ↦ isBlank x || isBreak x

/-- Past `n` characters of a line. -/
def skip (n : Nat) : Cursor :=
  { c with rest := c.rest.drop n, column := c.column + n, index := c.index + n }

/-- Past a line break, which may consist of two characters. -/
def skipBreak : Cursor :=
  let n := match c.rest with
    | '\r' :: '\n' :: _ => 2
    | _ => 1
  { rest := c.rest.drop n, line := c.line + 1, column := 0, index := c.index + n }

/-- What the break at the cursor stands for. All the usual breaks are one. -/
def breakText : List Char :=
  match c.peek? with
  | some x => if x == '\u2028' || x == '\u2029' then [x] else ['\n']
  | none => []

/-- The characters of the line up to one that does not satisfy `p`. -/
def takeWhile (p : Char → Bool) : List Char × Cursor :=
  let taken := c.rest.takeWhile p
  (taken, c.skip taken.length)

def skipWhile (p : Char → Bool) : Cursor := (c.takeWhile p).2

/-- Whether a line starts here with the mark of the start or the end of a document. -/
def atDocumentMark : Bool :=
  c.column == 0 && c.blankAt 3 &&
    (c.rest.take 3 == ['-', '-', '-'] || c.rest.take 3 == ['.', '.', '.'])

end Cursor

end SyntaxHighlight.Yaml
