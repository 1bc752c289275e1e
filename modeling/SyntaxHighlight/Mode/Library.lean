import SyntaxHighlight.Mode.Basic
import SyntaxHighlight.Pattern.Combinators

/-! Modes that most languages have in common. -/
namespace SyntaxHighlight.Mode

open Pattern

def identifier : String := "[a-zA-Z]\\w*"

def underscoreIdentifier : String := "[a-zA-Z_]\\w*"

def decimalNumber : String := "\\b\\d+(\\.\\d+)?"

/-- Hexadecimal numbers, decimal numbers with a fraction and an exponent, a sign before them. -/
def signedNumber : String :=
  "(-?)(\\b0[xX][a-fA-F0-9]+|(\\b\\d+(\\.\\d*)?|\\.\\d+)([eE][-+]?\\d+)?)"

def binaryNumber : String := "\\b(0b[01]+)"

/-- Marks of notes that authors leave for themselves. -/
def noteMarks : String := "(TODO|FIXME|NOTE|BUG|OPTIMIZE|HACK|XXX):"

/-- A mode that is a single match and weighs nothing. -/
def weightless (source : String) : Mode := { begin := some (.source source), relevance := some 0 }

def weightlessScope (scope source : String) : Mode :=
  { weightless source with scope := some (.name scope) }

/-- The line that names the interpreter of a script, at the very start of the text. -/
def shebang (interpreter : Option String) : Mode :=
  let start := "^#![ ]*/"
  let begin := match interpreter with
    | some name => concat [start, ".*\\b", name, "\\b.*"]
    | none => start
  { weightlessScope "meta" begin with
    ending := some (.source "$"), onBegin := some [.ignoreFrom 1] }

def backslashEscape : Mode := weightless "\\\\[\\s\\S]"

/-- A string on one line between two equal quotes. -/
def quotedString (quote : String) : Mode where
  scope := some (.name "string")
  begin := some (.source quote)
  ending := some (.source quote)
  illegal := some (.source "\\n")
  contains := [.inline backslashEscape]

def apostropheString : Mode := quotedString "\x27"

def quoteString : Mode := quotedString "\""

def phrasalWords : Mode where
  begin := some (.source (concat
    ["\\b(a|an|the|are|I\x27m|isn\x27t|don\x27t|doesn\x27t|won\x27t|but|just|should|pretty|simply|",
     "enough|gonna|going|wtf|so|such|will|you|your|they|like|more)\\b"]))

/-- A mark of a note, and the blanks before it, which are not a part of it. -/
def note : Mode where
  scope := some (.name "doctag")
  begin := some (.source (concat ["[ ]*", lookahead noteMarks]))
  ending := some (.source noteMarks)
  excludeBegin := true
  relevance := some 0

def prose : Mode where
  begin := some (.source (concat ["[ ]+", "(",
    either ["I", "a", "is", "so", "us", "to", "at", "if", "in", "it", "on",
      "[A-Za-z]+[\x27](d|ve|re|ll|t|s|n)", "[A-Za-z]+[-][a-z]+", "[A-Za-z][a-z]\x7b2,\x7d"],
    "[.]?[:]?([.][ ]|[ ])", ")\x7b3\x7d"]))

/-- A comment, with `extra` laid over it. It ends with a place for notes and one for prose. -/
def comment (begin ending : String) (extra : Mode) : Mode :=
  let base : Mode :=
    { scope := some (.name "comment"), begin := some (.source begin),
      ending := some (.source ending) }
  let mode := base.overlay extra
  { mode with contains := mode.contains ++ [.inline note, .inline prose] }

def slashLineComment : Mode := comment "//" "$" {}

def slashBlockComment : Mode := comment "/\\*" "\\*/" {}

def hashComment : Mode := comment "#" "$" {}

def number : Mode := weightlessScope "number" decimalNumber

def numberWithExponent : Mode := weightlessScope "number" signedNumber

def numberInBinary : Mode := weightlessScope "number" binaryNumber

def title : Mode := weightlessScope "title" identifier

def underscoreTitle : Mode := weightlessScope "title" underscoreIdentifier

/-- A name after a dot, which is not to be taken for a keyword. -/
def methodGuard : Mode := weightless (concat ["\\.\\s*", underscoreIdentifier])

/-- Where the text of the begin is noted. -/
def openedKey : String := "_beginMatch"

/-- The mode, ended only by an end whose first group has matched what that of the begin has. -/
def endsAsItBegan (mode : Mode) : Mode :=
  { mode with
    onBegin := some [.store openedKey 1], onEnd := some [.ignoreUnlessRepeated openedKey 1] }

end SyntaxHighlight.Mode
