import SyntaxHighlight.Yaml.Scalar

/-!
YAML texts as tokens. Where a mapping starts is known only when the colon after its first key is
read, so the tokens for the mapping and the key are put in before the key then.
-/
namespace SyntaxHighlight.Yaml

inductive Token where
  | directive
  | documentStart
  | documentEnd
  | blockSequence
  | blockMapping
  | blockEnd
  | flowSequence
  | flowSequenceEnd
  | flowMapping
  | flowMappingEnd
  | blockEntry
  | flowEntry
  | key
  | value
  /-- The name of a node that has been read. -/
  | reference (name : String)
  | anchor (name : String)
  | tag (text : String)
  | scalar (text : String) (bare : Bool)
deriving DecidableEq, Repr, Inhabited

/-- A place where a key may have started. -/
structure KeyStart where
  /-- Whether nothing but a key can stand there. -/
  required : Bool
  /-- The number of its first token. -/
  number : Nat
  line : Nat
  column : Nat
  index : Nat

structure Scanner where
  cursor : Cursor
  /-- The column of the innermost open block. -/
  indent : Int := -1
  /-- The columns of the blocks around it. -/
  outer : List Int := []
  /-- Where a key may have started: within each of the flow collections that are open, the
  innermost first, and outside of them. -/
  keys : List (Option KeyStart) := [none]
  keyAllowed : Bool := true
  tokens : Array Token := #[]

namespace Scanner

variable (s : Scanner)

def inFlow : Bool := 1 < s.keys.length

def push (t : Token) : Scanner := { s with tokens := s.tokens.push t }

def setKey (key : Option KeyStart) : Scanner := { s with keys := key :: s.keys.tail }

def column : Int := s.cursor.column

/-- Moves past `n` characters and adds a token. -/
def accept (t : Token) (n : Nat) : Scanner := { s.push t with cursor := s.cursor.skip n }

/-- Closes the blocks that are indented further than a column. -/
def unrollTo (column : Int) : List Int → Scanner → Scanner
  | [], s => s
  | indent :: outer, s =>
    if column < s.indent then
      unrollTo column outer { s.push .blockEnd with indent := indent, outer := outer }
    else s

def unroll (column : Int) : Scanner := if s.inFlow then s else unrollTo column s.outer s

/-- Opens a block at a column unless there is one already. Its token becomes number `number`. -/
def roll (column : Int) (number : Nat) (t : Token) : Scanner :=
  if s.inFlow || column ≤ s.indent then s
  else
    { s with
      indent := column
      outer := s.indent :: s.outer
      tokens := s.tokens.insertIdxIfInBounds number t }

/-- Gives up on a key. Fails if nothing else could stand there. -/
def removeKey : Option Scanner :=
  match s.keys.head?.join with
  | some key => if key.required then none else some (s.setKey none)
  | none => some s

/-- Notes that a key may start at the cursor. -/
def saveKey : Option Scanner :=
  if s.keyAllowed then do
    let s ← s.removeKey
    let c := s.cursor
    some (s.setKey (some
      ⟨!s.inFlow && s.indent == s.column, s.tokens.size, c.line, c.column, c.index⟩))
  else some s

/-- So many characters may stand between the start of a key and its colon. -/
def longestKey : Nat := 1024

/-- The key that the colon at the cursor belongs to. A key stands on one line. -/
def currentKey? : Option (Option KeyStart) :=
  match s.keys.head?.join with
  | none => some none
  | some key =>
    if key.line < s.cursor.line || key.index + longestKey < s.cursor.index then
      if key.required then none else some none
    else some (some key)

/-- Past blanks, comments and line breaks. -/
def skipGap : Nat → Scanner → Scanner
  | 0, s => s
  | fuel + 1, s =>
    let c := s.cursor.skipWhile fun x ↦ x == ' ' || (x == '\t' && (s.inFlow || !s.keyAllowed))
    let c := if c.isAt '#' then c.skipWhile fun x ↦ !isBreak x else c
    if c.atBreak then
      skipGap fuel { s with cursor := c.skipBreak, keyAllowed := s.keyAllowed || !s.inFlow }
    else { s with cursor := c }

def fetchValue : Option Scanner := do
  match ← s.currentKey? with
  | some key =>
    let s := { s with tokens := s.tokens.insertIdxIfInBounds key.number .key }
    let s := s.roll key.column key.number .blockMapping
    some ({ s.setKey none with keyAllowed := false }.accept .value 1)
  | none =>
    if !s.inFlow && !s.keyAllowed then none
    let s := (s.setKey none).roll s.column s.tokens.size .blockMapping
    some ({ s with keyAllowed := !s.inFlow }.accept .value 1)

def fetchKey : Option Scanner := do
  if !s.inFlow && !s.keyAllowed then none
  let s ← (s.roll s.column s.tokens.size .blockMapping).removeKey
  some ({ s with keyAllowed := !s.inFlow }.accept .key 1)

def fetchBlockEntry : Option Scanner := do
  if !s.inFlow && !s.keyAllowed then none
  let s ← (s.roll s.column s.tokens.size .blockSequence).removeKey
  some ({ s with keyAllowed := true }.accept .blockEntry 1)

def fetchFlowStart (t : Token) : Option Scanner := do
  let s ← s.saveKey
  some ({ s with keys := none :: s.keys, keyAllowed := true }.accept t 1)

def fetchFlowEnd (t : Token) : Option Scanner := do
  let s ← s.removeKey
  let keys := if s.inFlow then s.keys.tail else s.keys
  some ({ s with keys, keyAllowed := false }.accept t 1)

def fetchFlowEntry : Option Scanner := do
  let s ← s.removeKey
  some ({ s with keyAllowed := true }.accept .flowEntry 1)

def fetchDocumentMark (t : Token) : Option Scanner := do
  let s ← (s.unroll (-1)).removeKey
  some ({ s with keyAllowed := false }.accept t 3)

/-- A directive, which is a line of its own. There are two of them. -/
def fetchDirective : Option Scanner := do
  let s ← (s.unroll (-1)).removeKey
  let (line, c) := s.cursor.takeWhile fun x ↦ !isBreak x
  let word := line.takeWhile fun x ↦ !isBlank x
  if word = "%YAML".toList then
    let version := ((line.drop word.length).dropWhile isBlank).takeWhile fun x ↦ !isBlank x
    if version ≠ "1.1".toList ∧ version ≠ "1.2".toList then none
  else if word ≠ "%TAG".toList then none
  some { s.push .directive with cursor := c, keyAllowed := false }

def isNameChar (x : Char) : Bool :=
  Unicode.isAsciiLetter x || Unicode.isAsciiDigit x || x == '_' || x == '-'

/-- The name of a node, or a reference to one. -/
def fetchName (make : String → Token) : Option Scanner := do
  let s ← s.saveKey
  let (name, c) := (s.cursor.skip 1).takeWhile isNameChar
  let closed := c.blankAt 0 ||
    c.peek?.any fun x ↦ ['?', ':', ',', ']', '\x7d', '%', '@', '\x60'].contains x
  if name.isEmpty || !closed then none
  some { s.push (make (String.ofList name)) with cursor := c, keyAllowed := false }

def fetchTag : Option Scanner := do
  let s ← s.saveKey
  let (text, c) := s.cursor.takeWhile fun x ↦
    !isBlank x && !isBreak x && !(s.inFlow && isFlowMark x)
  some { s.push (.tag (String.ofList text)) with cursor := c, keyAllowed := false }

def fetchBlock (literal : Bool) : Option Scanner := do
  let s ← s.removeKey
  let (text, c) ← block literal s.indent (s.cursor.skip 1)
  some { s.push (.scalar (String.ofList text) false) with cursor := c, keyAllowed := true }

def fetchQuoted (single : Bool) : Option Scanner := do
  let s ← s.saveKey
  let (text, c) ← quoted single (s.cursor.rest.length + 1) [] (s.cursor.skip 1)
  some { s.push (.scalar (String.ofList text) false) with cursor := c, keyAllowed := false }

def fetchPlain : Option Scanner := do
  let s ← s.saveKey
  let (text, newLine, c) ←
    plain s.inFlow (s.indent + 1) (s.cursor.rest.length + 1) [] {} s.cursor
  some { s.push (.scalar (String.ofList text) true) with cursor := c, keyAllowed := newLine }

/-- Characters with which no bare scalar starts. -/
def isMark (x : Char) : Bool :=
  ['-', '?', ':', ',', '[', ']', '\x7b', '\x7d', '#', '&', '*', '!', '\x7c', '>', '\x27', '\x22',
    '%', '@', '\x60'].contains x

/-- The next token, which starts with the character `x` at the cursor. -/
def fetchAt (x : Char) : Option Scanner :=
  let c := s.cursor
  let apart := c.blankAt 1
  if x = '%' ∧ c.column = 0 then s.fetchDirective
  else if c.atDocumentMark then
    s.fetchDocumentMark (if x = '-' then .documentStart else .documentEnd)
  else if x = '[' then s.fetchFlowStart .flowSequence
  else if x = '\x7b' then s.fetchFlowStart .flowMapping
  else if x = ']' then s.fetchFlowEnd .flowSequenceEnd
  else if x = '\x7d' then s.fetchFlowEnd .flowMappingEnd
  else if x = ',' then s.fetchFlowEntry
  else if x = '-' ∧ apart then s.fetchBlockEntry
  else if x = '?' ∧ (s.inFlow ∨ apart) then s.fetchKey
  else if x = ':' ∧ (s.inFlow ∨ apart) then s.fetchValue
  else if x = '*' then s.fetchName .reference
  else if x = '&' then s.fetchName .anchor
  else if x = '!' then s.fetchTag
  else if x = '\x7c' ∧ !s.inFlow then s.fetchBlock true
  else if x = '>' ∧ !s.inFlow then s.fetchBlock false
  else if x = '\x27' then s.fetchQuoted true
  else if x = '\x22' then s.fetchQuoted false
  else if !(isMark x || isBlank x || isBreak x) ∨ (x = '-' ∧ c.peekAt? 1 ≠ some ' ' ∧
      c.peekAt? 1 ≠ some '\t') ∨ (!s.inFlow ∧ (x = '?' ∨ x = ':') ∧ !apart) then
    s.fetchPlain
  else none

def scan : Nat → Scanner → Option (Array Token)
  | 0, _ => none
  | fuel + 1, s => do
    let s := skipGap (s.cursor.rest.length + 1) s
    let s := s.unroll s.column
    match s.cursor.peek? with
    | none =>
      let s ← (s.unroll (-1)).removeKey
      some s.tokens
    | some x => scan fuel (← s.fetchAt x)

end Scanner

/-- The tokens of a text. Each takes a character at least. -/
def tokens? (text : List Char) : Option (Array Token) :=
  let text := match text with
    | '\ufeff' :: rest => rest
    | _ => text
  if text.all isAllowed then Scanner.scan (text.length + 1) { cursor := { rest := text } } else none

end SyntaxHighlight.Yaml
