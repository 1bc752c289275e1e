import SyntaxHighlight.Grammar.Error
import SyntaxHighlight.Regex.Compile

/-! Putting pattern sources together, and compiling them for a grammar. -/
namespace SyntaxHighlight.Pattern

def matchNothing : String := "\\b\\B"

/-- Matches the empty text at any place. -/
def matchAnywhere : String := "\\B|\\b"

def source? : Option String → Option String
  | some s => if s.isEmpty then none else some s
  | none => none

/-- Characters that mean something else than themselves in a pattern. -/
def isSpecial (c : Char) : Bool :=
  ['-', '/', '\\', '^', '$', '*', '+', '?', '.', '\x28', '\x29', '\x7c', '[', ']', '\x7b',
    '\x7d'].contains c

def escapeChars (cs : List Char) : List Char :=
  cs.flatMap fun c ↦ if isSpecial c then ['\\', c] else [c]

/-- A pattern that matches just the given text. -/
def escape (text : String) : String := String.ofList (escapeChars text.toList)

def concat (parts : List String) : String := String.join parts

def lookahead (source : String) : String := "(?=" ++ source ++ ")"

def optional (source : String) : String := "(?:" ++ source ++ ")?"

def anyNumberOfTimes (source : String) : String := "(?:" ++ source ++ ")*"

/-- Alternatives in a group of their own. -/
def either (parts : List String) : String := "(?:" ++ "|".intercalate parts ++ ")"

def eitherCapture (parts : List String) : String := "(" ++ "|".intercalate parts ++ ")"

/-- The expression of a source, or why a grammar cannot use it. -/
def compile (source : String) (flags : Regex.Flags) : Except GrammarError Regex.Expr :=
  match Regex.compile source flags with
  | .ok e => .ok e
  | .error e => .error (.invalidPattern source ("Oniguruma error: " ++ e.message))

/-- The number of capturing groups, counted with an empty alternative at the end. -/
def countGroups (source : String) : Except GrammarError Nat := do
  let e ← compile (source ++ "|") {}
  pure e.groupCount

end SyntaxHighlight.Pattern
