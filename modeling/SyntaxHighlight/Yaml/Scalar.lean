import SyntaxHighlight.Yaml.Cursor

/-! The texts of scalars: bare, in quotes, and as blocks of lines. -/
namespace SyntaxHighlight.Yaml

/-- What stands between two stretches of text: blanks, or line breaks with blanks around them. -/
structure Gap where
  blanks : List Char := []
  /-- What the breaks stand for. -/
  breaks : List (List Char) := []

namespace Gap

/-- What a gap contributes to a text: its blanks, or a blank for a single break, or the breaks but
the first. -/
def text (g : Gap) : List Char :=
  match g.breaks with
  | [] => g.blanks
  | first :: more =>
    if first = ['\n'] then (if more.isEmpty then [' '] else more.flatten)
    else first ++ more.flatten

/-- Reads a gap. A tab must not stand where the indentation has to be. -/
def read (indent : Int) : Nat → Gap → Cursor → Option (Gap × Cursor)
  | 0, _, _ => none
  | fuel + 1, g, c =>
    match c.peek? with
    | none => some (g, c)
    | some x =>
      if isBreak x then
        read indent fuel { g with breaks := g.breaks ++ [c.breakText] } c.skipBreak
      else if isBlank x then
        if g.breaks.isEmpty then read indent fuel { g with blanks := g.blanks ++ [x] } (c.skip 1)
        else if x = '\t' ∧ (c.column : Int) < indent then none
        else read indent fuel g (c.skip 1)
      else some (g, c)

end Gap

def isFlowMark (x : Char) : Bool :=
  x == ',' || x == '[' || x == ']' || x == '\x7b' || x == '\x7d'

/-- The characters of a bare scalar up to a blank or what else ends it. -/
def plainRun (inFlow : Bool) : List Char → Option (List Char)
  | [] => some []
  | x :: rest =>
    if isBlank x || isBreak x then some []
    else if inFlow && x == ':' && rest.head?.any (fun y ↦ isFlowMark y || y == '?') then none
    else if x == ':' && rest.head?.all (fun y ↦ isBlank y || isBreak y) then some []
    else if inFlow && isFlowMark x then some []
    else (plainRun inFlow rest).map (x :: ·)

/-- A bare scalar, which goes on over the lines that are indented enough. Tells whether the cursor
stands on a later line than the text. -/
def plain (inFlow : Bool) (indent : Int) :
    Nat → List Char → Gap → Cursor → Option (List Char × Bool × Cursor)
  | 0, _, _, _ => none
  | fuel + 1, read, gap, c => do
    let done := (read, !gap.breaks.isEmpty, c)
    if c.atDocumentMark || c.isAt '#' then return done
    let run ← plainRun inFlow c.rest
    if run.isEmpty then return done
    let read := read ++ gap.text ++ run
    let c := c.skip run.length
    if !(c.atBlank || c.atBreak) then return (read, false, c)
    let (gap, c) ← Gap.read indent (c.rest.length + 1) {} c
    if !inFlow && (c.column : Int) < indent then return (read, !gap.breaks.isEmpty, c)
    plain inFlow indent fuel read gap c

def hexEscape? (count : Nat) (cs : List Char) : Option Char :=
  let digits := cs.take count
  let n := numeralValue 16 digits
  if digits.length = count ∧ digits.all Unicode.isHexDigit ∧ n.isValidChar then
    some (Char.ofNat n)
  else none

/-- The character that an escape stands for, and the length of the escape after the backslash. -/
def escape? : List Char → Option (Char × Nat)
  | [] => none
  | x :: rest =>
    match x with
    | '0' => some ('\x00', 1)
    | 'a' => some ('\x07', 1)
    | 'b' => some ('\x08', 1)
    | 't' | '\t' => some ('\t', 1)
    | 'n' => some ('\n', 1)
    | 'v' => some ('\x0b', 1)
    | 'f' => some ('\x0c', 1)
    | 'r' => some ('\r', 1)
    | 'e' => some ('\x1b', 1)
    | ' ' => some (' ', 1)
    | '\x22' => some ('\x22', 1)
    | '/' => some ('/', 1)
    | '\\' => some ('\\', 1)
    | 'N' => some ('\u0085', 1)
    | '_' => some ('\u00a0', 1)
    | 'L' => some ('\u2028', 1)
    | 'P' => some ('\u2029', 1)
    | 'x' => (hexEscape? 2 rest).map fun c ↦ (c, 3)
    | 'u' => (hexEscape? 4 rest).map fun c ↦ (c, 5)
    | 'U' => (hexEscape? 8 rest).map fun c ↦ (c, 9)
    | _ => none

/-- The characters of a quoted scalar up to a blank, the closing quote or an escaped break, and
whether it was the last. -/
def quotedRun (single : Bool) :
    Nat → List Char → Cursor → Option (List Char × Bool × Cursor)
  | 0, _, _ => none
  | fuel + 1, read, c =>
    match c.rest with
    | [] => some (read, false, c)
    | x :: rest =>
      if isBlank x || isBreak x then some (read, false, c)
      else if single then
        if x = '\x27' then
          if rest.head? = some '\x27' then quotedRun single fuel (read ++ [x]) (c.skip 2)
          else some (read, false, c)
        else quotedRun single fuel (read ++ [x]) (c.skip 1)
      else if x = '\x22' then some (read, false, c)
      else if x = '\\' then
        if rest.head?.any isBreak then some (read, true, (c.skip 1).skipBreak)
        else do
          let (escaped, length) ← escape? rest
          quotedRun single fuel (read ++ [escaped]) (c.skip (length + 1))
      else quotedRun single fuel (read ++ [x]) (c.skip 1)

/-- A quoted scalar, from what follows the opening quote. -/
def quoted (single : Bool) : Nat → List Char → Cursor → Option (List Char × Cursor)
  | 0, _, _ => none
  | fuel + 1, read, c => do
    if c.atDocumentMark || c.atEnd then none
    let (read, escapedBreak, c) ← quotedRun single (c.rest.length + 1) read c
    if !escapedBreak && c.isAt (if single then '\x27' else '\x22') then return (read, c.skip 1)
    let (gap, c) ← Gap.read 0 (c.rest.length + 1)
      { breaks := if escapedBreak then [[]] else [] } c
    quoted single fuel (read ++ gap.text) c

/-- Empty lines before the next line of a block, and how far that one is indented at most. -/
def blockBreaks (indent : Nat) :
    Nat → List (List Char) → Nat → Cursor → Option (List (List Char) × Nat × Cursor)
  | 0, _, _, _ => none
  | fuel + 1, breaks, widest, c =>
    let blanks := c.rest.takeWhile (· == ' ')
    let c := c.skip (if indent = 0 then blanks.length else min blanks.length (indent - c.column))
    let widest := max widest c.column
    if (indent = 0 || c.column < indent) && c.isAt '\t' then none
    else if c.atBreak then blockBreaks indent fuel (breaks ++ [c.breakText]) widest c.skipBreak
    else some (breaks, widest, c)

/-- The lines of a block. `held` is the break after the last line, and `breaks` are those of the
empty lines that follow it. -/
def blockLines (literal : Bool) (indent : Nat) :
    Nat → List Char → List Char → List (List Char) → Bool → Cursor →
      Option (List Char × List Char × List (List Char) × Cursor)
  | 0, _, _, _, _, _ => none
  | fuel + 1, read, held, breaks, afterBlank, c =>
    if c.column ≠ indent ∨ c.atEnd then some (read, held, breaks, c)
    else do
      let atBlank := c.atBlank
      let between :=
        if !literal && held = ['\n'] && !afterBlank && !atBlank then
          if breaks.isEmpty then [' '] else []
        else held
      let (line, c) := c.takeWhile fun x ↦ !isBreak x
      let held := c.breakText
      let c := if c.atBreak then c.skipBreak else c
      let read := read ++ between ++ breaks.flatten ++ line
      let (breaks, _, c) ← blockBreaks indent (c.rest.length + 1) [] 0 c
      blockLines literal indent fuel read held breaks atBlank c

/-- What the marks after that of a block say: whether the breaks at its end are kept, if that is
said, and how far it is indented, if that is. -/
def blockHeader (c : Cursor) : Option (Option Bool × Option Nat × Cursor) :=
  let chomping? (c : Cursor) : Option Bool :=
    if c.isAt '+' then some true else if c.isAt '-' then some false else none
  let digit? (c : Cursor) : Option Nat :=
    (c.peek?.filter Unicode.isAsciiDigit).map digitValue
  let (chomping, c) := match chomping? c with
    | some keep => (some keep, c.skip 1)
    | none => (none, c)
  let (indent, c) := match digit? c with
    | some n => (some n, c.skip 1)
    | none => (none, c)
  let (chomping, c) := match chomping, chomping? c with
    | none, some keep => if indent.isSome then (some keep, c.skip 1) else (none, c)
    | chomping, _ => (chomping, c)
  if indent = some 0 then none else some (chomping, indent, c)

/-- A block of lines, from what follows its mark. -/
def block (literal : Bool) (parentIndent : Int) (c : Cursor) : Option (List Char × Cursor) := do
  let (chomping, increment, c) ← blockHeader c
  let c := c.skipWhile isBlank
  let c := if c.isAt '#' then c.skipWhile fun x ↦ !isBreak x else c
  if !(c.atBreak || c.atEnd) then none
  let c := if c.atBreak then c.skipBreak else c
  let outer := parentIndent.toNat
  let given := (increment.map fun n ↦ outer + n).getD 0
  let fuel := c.rest.length + 2
  let (breaks, widest, c) ← blockBreaks given fuel [] 0 c
  let indent := if given = 0 then max (max widest (parentIndent + 1).toNat) 1 else given
  let (read, held, breaks, c) ← blockLines literal indent fuel [] [] breaks false c
  let ending := match chomping with
    | some false => []
    | none => held
    | some true => held ++ breaks.flatten
  pure (read ++ ending, c)

end SyntaxHighlight.Yaml
