import SyntaxHighlight.Pattern.Combinators

/-!
Gluing patterns together so that each one's numbered references still point at its own groups.
Every pattern gets a group of its own, which tells which of them matched.
-/
namespace SyntaxHighlight.Pattern

open Regex Unicode

/-- A piece of a pattern, as far as the counting of groups is concerned. -/
inductive Token where
  /-- A bracketed class, brackets included. Parentheses in it count for nothing. -/
  | bracketed (text : List Char)
  /-- A parenthesis that takes a group number. -/
  | opening
  /-- A parenthesis and a question mark, which take none. -/
  | special
  | reference (digits : List Char)
  | escape (c : Char)
  | plain (c : Char)
deriving DecidableEq, Repr

def Token.chars : Token → List Char
  | .bracketed text => text
  | .opening => ['\x28']
  | .special => ['\x28', '?']
  | .reference digits => '\\' :: digits
  | .escape c => ['\\', c]
  | .plain c => [c]

/-- The text up to and including the first closing bracket that is not escaped, and what follows.
There is none if a backslash is not followed by a character on its line. -/
def bracketedText? : List Char → Option (List Char × List Char)
  | [] => none
  | ']' :: rest => some ([']'], rest)
  | '\\' :: c :: rest =>
    if c = '\n' then none
    else (bracketedText? rest).map fun (text, rest) ↦ ('\\' :: c :: text, rest)
  | ['\\'] => none
  | c :: rest => (bracketedText? rest).map fun (text, rest) ↦ (c :: text, rest)

/-- The first piece of a pattern that is not empty, and what follows it. -/
def firstToken (c : Char) (cs : List Char) : Token × List Char :=
  match c, cs with
  | '[', cs =>
    match bracketedText? cs with
    | some (text, rest) => (.bracketed ('[' :: text), rest)
    | none => (.plain '[', cs)
  | '\x28', '?' :: rest => (.special, rest)
  | '\x28', rest => (.opening, rest)
  | '\\', d :: rest =>
    -- A zero does not start a reference but a character in octal.
    if isAsciiDigit d ∧ d ≠ '0' then
      let (digits, rest) := (d :: rest).span isAsciiDigit
      (.reference digits, rest)
    else if d = '\n' then (.plain '\\', d :: rest)
    else (.escape d, rest)
  | c, rest => (.plain c, rest)

/-- The pieces of a pattern. Each takes a character at least, so the length suffices as fuel. -/
def tokensFrom : Nat → List Char → List Token
  | 0, _ => []
  | _, [] => []
  | fuel + 1, c :: cs =>
    let (token, rest) := firstToken c cs
    token :: tokensFrom fuel rest

def tokens (cs : List Char) : List Token := tokensFrom cs.length cs

def openings (ts : List Token) : Nat := ts.countP (· == .opening)

/-- A piece with its reference, if it is one, moved up. A number too large to be read counts as
0. -/
def Token.shifted (offset : Nat) : Token → List Char
  | .reference digits =>
    let n := numeralValue 10 digits
    '\\' :: (toString ((if n ≤ greatest64 then n else 0) + offset)).toList
  | token => token.chars

/-- The patterns, each in a group of its own, with `before` groups ahead of them. -/
def wrapped : Nat → List String → List String
  | _, [] => []
  | before, pattern :: patterns =>
    let ts := tokens pattern.toList
    -- One more than `before`, for the group around the pattern itself.
    ("(" ++ String.ofList (ts.flatMap (Token.shifted (before + 1))) ++ ")") ::
      wrapped (before + 1 + openings ts) patterns

/-- The patterns joined, references renumbered by the groups that precede each pattern. -/
def rewriteReferences (patterns : List String) (separator : String) : String :=
  separator.intercalate (wrapped 0 patterns)

/-- Patterns to be matched one right after another. -/
def flattenSequence (parts : List String) : String := rewriteReferences parts ""

end SyntaxHighlight.Pattern
