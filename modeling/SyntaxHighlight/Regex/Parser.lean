import SyntaxHighlight.Regex.Basic
import SyntaxHighlight.Regex.Class

/-!
Reading the source of a regular expression. A group's options hold from where they are set to the
end of the enclosing group, alternatives included.
-/
namespace SyntaxHighlight.Regex

open Unicode

/-- Options in force at a place of the source. -/
structure Options where
  ignoreCase : Bool := false
  /-- Blanks and comments are left out. -/
  extended : Bool := false
  /-- A dot matches newlines too. -/
  dotAll : Bool := false
deriving DecidableEq, Repr, Inhabited

/-- A number after a backslash, as references have it. -/
structure Numbered where
  /-- How much is left from the number on. -/
  left : Nat
  number : Nat
  /-- How many groups have been opened before it. -/
  opened : Nat
deriving DecidableEq, Repr

/-- What is left to read, and the groups and numbers met so far. -/
structure Source where
  rest : List Char
  groups : Nat := 0
  names : List (String × Nat) := []
  numbers : List Numbered := []
deriving Repr

def Source.numbersOf (s : Source) (name : String) : List Nat :=
  s.names.filterMap fun (n, i) ↦ if n = name then some i else none

def isExtendedBlank (c : Char) : Bool :=
  c == ' ' || c == '\t' || c == '\n' || c == '\r' || c == '\x0c'

def afterComment : List Char → Option (List Char)
  | [] => none
  | '\x29' :: rest => some rest
  | '\\' :: _ :: rest => afterComment rest
  | _ :: rest => afterComment rest

/-- The source from the next thing that is neither comment nor, if extended, blank. -/
def skipIgnored (extended : Bool) : Nat → List Char → Except PatternError (List Char)
  | 0, cs => pure cs
  | fuel + 1, cs =>
    match cs with
    | '\x28' :: '?' :: '#' :: rest =>
      match afterComment rest with
      | some rest => skipIgnored extended fuel rest
      | none => throw .endInGroup
    | '#' :: rest =>
      if extended then
        skipIgnored extended fuel ((rest.dropWhile (· != '\n')).drop 1)
      else pure cs
    | c :: rest => if extended && isExtendedBlank c then skipIgnored extended fuel rest else pure cs
    | [] => pure []

structure Quantifier where
  low : Nat
  high : Option Nat
  greedy : Bool := true
  possessive : Bool := false
deriving DecidableEq, Repr

def greatestRepeat : Nat := 100000

/-- What two bounds ask for, if a brace closes them and one of them is given. In falling order they
ask for a possessive repetition. -/
def boundedBetween (low high : Option Nat) : List Char → Option ((Quantifier × Bool) × List Char)
  | '\x7d' :: rest =>
    match low, high with
    | none, none => none
    | some n, none => some ((⟨n, none, true, false⟩, false), rest)
    | _, some m =>
      let n := low.getD 0
      -- Bounds in falling order are put in order.
      if m < n then some ((⟨m, some n, true, true⟩, false), rest)
      else some ((⟨n, some m, true, false⟩, false), rest)
  | _ => none

/-- The rest of an interval, after its first bound. -/
def intervalAfter (low : Option Nat) :
    List Char → Except PatternError (Option ((Quantifier × Bool) × List Char))
  | '\x7d' :: rest =>
    match low with
    | some n => pure (some ((⟨n, some n, true, false⟩, true), rest))
    | none => pure none
  | ',' :: rest =>
    let (high, rest) := decimal? rest
    if greatestRepeat < high.getD 0 then throw .repeatTooBig
    else pure (boundedBetween low high rest)
  | _ => pure none

/-- The bounds between braces, and whether there is only one; none if the brace is not the start of
an interval. -/
def interval? (cs : List Char) : Except PatternError (Option ((Quantifier × Bool) × List Char)) :=
  let (low, rest) := decimal? cs
  if greatestRepeat < low.getD 0 then throw .repeatTooBig else intervalAfter low rest

/-- A quantifier's sign, less what follows it. -/
def signQuantifier? : Char → Option Quantifier
  | '*' => some ⟨0, none, true, false⟩
  | '+' => some ⟨1, none, true, false⟩
  | '?' => some ⟨0, some 1, true, false⟩
  | _ => none

/-- Makes a quantifier reluctant if a question mark follows it. -/
def reluctant (q : Quantifier) : List Char → Quantifier × List Char
  | '?' :: rest => ({ q with greedy := false }, rest)
  | rest => (q, rest)

/-- Makes a quantifier reluctant or possessive, as the character after its sign says. -/
def signed (q : Quantifier) : List Char → Quantifier × List Char
  | '+' :: rest => ({ q with possessive := true }, rest)
  | rest => reluctant q rest

def quantifier? : List Char → Except PatternError (Option (Quantifier × List Char))
  | '\x7b' :: cs => do
    match ← interval? cs with
    | none => pure none
    | some ((q, single), rest) =>
      -- After a single bound a question mark is a quantifier of its own.
      pure (some (if single || q.possessive then (q, rest) else reluctant q rest))
  | c :: cs =>
    match signQuantifier? c with
    | none => pure none
    | some q => pure (some (signed q cs))
  | [] => pure none

/-- Places and resets cannot be repeated, nor can alternatives that have one among them. -/
def Node.isRepeatable : Node → Bool
  | .anchor _ | .look .. | .keep => false
  | .alt a b => a.isRepeatable && b.isRepeatable
  | _ => true

def Quantifier.apply (q : Quantifier) (body : Node) : Node :=
  let node :=
    if q.low = 1 ∧ q.high = some 1 then body
    else .repetition body q.low q.high q.greedy
  if q.possessive then .atomic node else node

/-- A node with the quantifiers that follow it. -/
def quantified (extended : Bool) : Nat → Node → List Char → Except PatternError (Node × List Char)
  | 0, node, cs => pure (node, cs)
  | fuel + 1, node, cs => do
    let cs ← skipIgnored extended cs.length cs
    match ← quantifier? cs with
    | none => pure (node, cs)
    | some (q, rest) =>
      if node.isRepeatable then quantified extended fuel (q.apply node) rest
      else throw .cannotRepeat

inductive Reference where
  | absolute (n : Nat)
  | relative (n : Int)
  | name (s : String)
deriving DecidableEq, Repr

/-- The name up to its closing delimiter, and what follows that. A parenthesis ends it too, as a
mistake. -/
def delimitedName (close : Char) (cs : List Char) :
    Except PatternError (List Char × List Char) :=
  let (name, rest) := cs.span fun c ↦ c != close && c != '\x29'
  if cs.isEmpty ∨ (name.isEmpty ∧ rest.head? = some close) then throw .emptyGroupName
  else if rest.head? = some close then pure (name, rest.drop 1)
  else throw (.invalidGroupName (String.ofList name))

/-- What a name up to its closing delimiter stands for. -/
def delimited {α : Type} (read : List Char → Except PatternError α) (close : Char)
    (cs : List Char) : Except PatternError (α × List Char) := do
  let (name, rest) ← delimitedName close cs
  pure (← read name, rest)

def groupName (name : List Char) : Except PatternError String :=
  let text := String.ofList name
  match name with
  | c :: _ =>
    if isAsciiDigit c ∨ c = '-' ∨ c = '+' then throw (.invalidGroupName text)
    else if name.all isWord then pure text
    else throw (.invalidCharInGroupName text)
  | [] => throw .emptyGroupName

/-- A group's number, given by its digits within a name. -/
def referenceNumber (text : String) (digits : List Char) : Except PatternError Nat :=
  if digits.isEmpty then throw (.invalidGroupName text)
  else if !digits.all isWord then throw (.invalidCharInGroupName text)
  else if !digits.all isAsciiDigit then throw (.invalidGroupName text)
  else if numeralValue 10 digits > greatestNumber then throw .numberTooBig
  else pure (numeralValue 10 digits)

def reference (name : List Char) : Except PatternError Reference :=
  let text := String.ofList name
  match name with
  | [] => throw .emptyGroupName
  | c :: digits =>
    if isAsciiDigit c then Reference.absolute <$> referenceNumber text name
    else if c = '-' ∨ c = '+' then do
      let n ← referenceNumber text digits
      if n = 0 then throw (.invalidGroupName text)
      else pure (.relative (if c = '-' then -(n : Int) else n))
    else if name.all isWord then pure (.name text)
    else throw (.invalidCharInGroupName text)

/-- The number that a distance from the current group refers to. -/
def Source.resolve (s : Source) (distance : Int) : Int :=
  if distance > 0 then s.groups + distance else s.groups + 1 + distance

def charNode (o : Options) (c : Char) : Node :=
  if o.ignoreCase then .folded [c] else .set (.singleton c)

/-- The node of a bracketed class. When case does not matter, a character that folds to several is
a member also in that form, unless the class is negated. -/
def classNode (o : Options) (b : Bracketed) : Node :=
  if !o.ignoreCase then .set b.toSet
  else if b.negated then .set (.compl (.upToCase b.members))
  else
    let single : Node := .set (.upToCase b.members)
    let images := expandingFolds.toList.filterMap fun (code, image) ↦
      if b.members.contains (Char.ofNat code) then some (image.map Char.ofNat) else none
    if images.isEmpty then single else .alt single (.foldedAny images)

/-- A newline of any kind, the two characters of one taken together. -/
def newlineNode : Node :=
  .atomic (.alt (.seq (.set (.singleton '\r')) (.set (.singleton '\n')))
    (.set (.union (.range '\n' '\r') (.union (.singleton '\x85') (.range '\u2028' '\u2029')))))

/-- The place or gimmick that a letter after a backslash stands for. -/
def escapedPlace? : Char → Option Node
  | 'b' => some (.anchor .wordBoundary)
  | 'B' => some (.anchor .notWordBoundary)
  | 'A' => some (.anchor .textStart)
  | 'Z' => some (.anchor .textEndOrNewline)
  | 'z' => some (.anchor .textEnd)
  | 'G' => some (.anchor .searchStart)
  | 'K' => some .keep
  | 'R' => some newlineNode
  | 'N' => some (.set (.compl (.singleton '\n')))
  | 'O' => some (.set (.property .any))
  | _ => none

/-- The class, place or gimmick that a letter after a backslash stands for. -/
def escapedLetter? (c : Char) : Option Node :=
  match escapedClass? c with
  | some set => some (.set set)
  | none => escapedPlace? c

/-- What follows a letter `k` or `g`, if it stands between delimiters. -/
def delimitedReference? : List Char → Except PatternError (Option (Reference × List Char))
  | '<' :: rest => some <$> delimited reference '>' rest
  | '\x27' :: rest => some <$> delimited reference '\x27' rest
  | _ => pure none

/-- The groups that a reference goes back to, the latest first. -/
def Source.referred (s : Source) : Reference → Except PatternError (List Nat)
  | .absolute n => if n = 0 then throw .invalidBackref else pure [n]
  | .relative distance =>
    let n := s.resolve distance
    if n ≤ 0 then throw .invalidBackref else pure [n.toNat]
  | .name name =>
    match s.numbersOf name with
    | [] => throw (.undefinedName name)
    | numbers => pure numbers.reverse

/-- The group that a reference calls. -/
def Source.called (s : Source) : Reference → Except PatternError GroupRef
  | .absolute n => pure (.number n)
  | .relative distance =>
    let n := s.resolve distance
    if n < 0 then throw (.undefinedGroup (ToString.toString distance)) else pure (.number n.toNat)
  | .name name => pure (.name name)

/-- A reference or a call, if a letter `k` or `g` and a delimiter follow a backslash. -/
def delimitedNode? (o : Options) (s : Source) :
    List Char → Except PatternError (Option (Node × List Char))
  | 'k' :: cs => do
    match ← delimitedReference? cs with
    | some (target, rest) => do pure (some (.backref (← s.referred target) o.ignoreCase, rest))
    | none => pure none
  | 'g' :: cs => do
    match ← delimitedReference? cs with
    | some (target, rest) => do pure (some (.call (← s.called target), rest))
    | none => pure none
  | _ => pure none

/-- The number after a backslash, if it is one and does not start with a zero. -/
def escapedNumber? : List Char → Option (Nat × List Char)
  | [] => none
  | c :: cs =>
    if c = '0' then none
    else
      match decimal? (c :: cs) with
      | (some n, rest) => some (n, rest)
      | (none, _) => none

/-- Whether a number after a backslash refers to a group: when it has one digit or when so many
groups have been opened. -/
def isGroupNumber (opened n : Nat) : Bool := n ≤ greatestNumber && (n ≤ opened || n ≤ 9)

/-- A reference by number, or a digit that no octal number starts with. -/
def numberedNode? (o : Options) (s : Source) (cs : List Char) : Option (Node × List Char) :=
  match escapedNumber? cs with
  | none => none
  | some (n, rest) =>
    if isGroupNumber s.groups n then some (.backref [n] o.ignoreCase, rest)
    else
      match cs with
      | '8' :: cs => some (charNode o '8', cs)
      | '9' :: cs => some (charNode o '9', cs)
      | _ => none

/-- A character after a backslash. An `x` and a brace that give no code point are themselves. -/
def escapedLiteral (cs : List Char) : Except PatternError (Char × List Char) := do
  match ← codePointEscape? cs with
  | some (c, rest) => pure (c, rest)
  | none =>
    match cs with
    | 'x' :: '\x7b' :: rest => pure ('x', '\x7b' :: rest)
    | _ => spelledChar cs

/-- A backslash and what belongs to it. A number that refers to no group is a character in octal. -/
def escapeNode (o : Options) (s : Source) :
    List Char → Except PatternError (Node × List Char)
  | [] => throw .endAtEscape
  | c :: cs => do
    match escapedLetter? c with
    | some node => pure (node, cs)
    | none =>
      match ← delimitedNode? o s (c :: cs) with
      | some found => pure found
      | none =>
        match ← escapedProperty? (c :: cs) with
        | some (set, rest) => pure (.set set, rest)
        | none =>
          match numberedNode? o s (c :: cs) with
          | some found => pure found
          | none => do
            let (d, rest) ← escapedLiteral (c :: cs)
            pure (charNode o d, rest)

/-- The number that a reference or what looks like one gives, after the backslash. -/
def writtenNumber? : List Char → Option Nat
  | 'k' :: '<' :: cs | 'k' :: '\x27' :: cs => (decimal? cs).1
  | cs => (escapedNumber? cs).map (·.1)

/-- Takes note of a number after a backslash. -/
def Source.noting (s : Source) (cs : List Char) : Source :=
  match writtenNumber? cs with
  | some n => { s with numbers := s.numbers ++ [⟨cs.length, n, s.groups⟩] }
  | none => s

/-- What the letters after `(?` say: options for the rest of the group, or for a group of their
own, which then follows. -/
inductive OptionGroup where
  | rest (o : Options)
  | body (o : Options)
deriving Repr

def optionGroup : Bool → Options → List Char → Except PatternError (OptionGroup × List Char)
  | _, _, [] => throw .endInGroup
  | _, o, '\x29' :: cs => pure (.rest o, cs)
  | _, o, ':' :: cs => pure (.body o, cs)
  | _, o, '-' :: cs => optionGroup false o cs
  | on, o, 'i' :: cs => optionGroup on { o with ignoreCase := on } cs
  | on, o, 'x' :: cs => optionGroup on { o with extended := on } cs
  | on, o, 'm' :: cs => optionGroup on { o with dotAll := on } cs
  | _, _, _ => throw .undefinedOption

inductive Enclosure where
  | plain
  | atomic
  | look (direction : Direction) (negated : Bool)
deriving DecidableEq, Repr

def Enclosure.node : Enclosure → Node → Node
  | .plain, body => body
  | .atomic, body => .atomic body
  | .look direction negated, body => .look direction negated body

inductive Opening where
  | group (e : Enclosure) (o : Options)
  | capture (name : Option String)
  /-- Options for the rest of the enclosing group. -/
  | options (o : Options)
  /-- A group that has been read whole. -/
  | done (node : Node)

def OptionGroup.opening : OptionGroup → Opening
  | .rest o => .options o
  | .body o => .group .plain o

/-- A callout, from what follows the asterisk. The only one there is makes the match fail. -/
def callout (cs : List Char) : Except PatternError (Node × List Char) :=
  let (name, rest) := cs.span fun c ↦ c != '\x29' && c != '[' && c != '\x7b'
  let isNameChar (c : Char) : Bool := isAsciiLetter c || isAsciiDigit c || c == '_'
  if rest.isEmpty then throw .unclosedCallout
  else if !name.all isNameChar || name.head?.all isAsciiDigit then throw .calloutName
  else
    match rest with
    | '\x29' :: rest =>
      if name = ['F', 'A', 'I', 'L'] then pure (.set .empty, rest) else throw .unknownCallout
    | _ => throw .unknownCallout

def opening (o : Options) : List Char → Except PatternError (Opening × List Char)
  | [] => throw .unmatchedOpen
  | ['?'] => throw .endInGroup
  | '?' :: ':' :: rest => pure (.group .plain o, rest)
  | '?' :: '=' :: rest => pure (.group (.look .ahead false) o, rest)
  | '?' :: '!' :: rest => pure (.group (.look .ahead true) o, rest)
  | '?' :: '>' :: rest => pure (.group .atomic o, rest)
  | ['?', '<'] => throw .unmatchedOpen
  | '?' :: '<' :: '=' :: rest => pure (.group (.look .behind false) o, rest)
  | '?' :: '<' :: '!' :: rest => pure (.group (.look .behind true) o, rest)
  | '?' :: '<' :: rest => named '>' rest
  | '?' :: '\x27' :: rest => named '\x27' rest
  | '?' :: rest => do
    let (g, rest) ← optionGroup true o rest
    pure (g.opening, rest)
  | '*' :: rest => do
    let (node, rest) ← callout rest
    pure (.done node, rest)
  | rest => pure (.capture none, rest)
where
  named (close : Char) (rest : List Char) : Except PatternError (Opening × List Char) := do
    let (name, rest) ← delimited groupName close rest
    pure (.capture (some name), rest)

/-- Opens a group that takes the next number. -/
def Source.numbered (s : Source) (name : Option String) : Source :=
  { s with
    groups := s.groups + 1
    names := s.names ++ name.toList.map fun name ↦ (name, s.groups + 1) }

def Source.closed (s : Source) : Except PatternError Source :=
  match s.rest with
  | '\x29' :: rest => pure { s with rest := rest }
  | _ => throw .unmatchedOpen

mutual

/-- Alternatives, up to a closing parenthesis or the end. -/
def alternatives : Nat → Options → Source → Except PatternError (Node × Source)
  | 0, _, _ => throw .nestedTooDeep
  | fuel + 1, o, s => do
    let (node, s) ← branch fuel o s
    match s.rest with
    | '\x7c' :: rest =>
      let (other, s) ← alternatives fuel o { s with rest := rest }
      pure (.alt node other, s)
    | _ => pure (node, s)

/-- A sequence, up to a bar, a closing parenthesis or the end. Options without a group of their own
take in all that is left of the enclosing group, bars included. -/
def branch : Nat → Options → Source → Except PatternError (Node × Source)
  | 0, _, _ => throw .nestedTooDeep
  | fuel + 1, o, s => do
    let rest ← skipIgnored o.extended s.rest.length s.rest
    let s := { s with rest := rest }
    match rest with
    | [] | '\x7c' :: _ | '\x29' :: _ => pure (.empty, s)
    | '\x28' :: rest =>
      let (what, rest) ← opening o rest
      let s := { s with rest := rest }
      match what with
      -- The bars that follow are read here too, and so divide what is left of the group.
      | .options o => alternatives fuel o s
      | .done node => next fuel o node s
      | .group e inner =>
        let (body, s) ← alternatives fuel inner s
        next fuel o (e.node body) (← s.closed)
      | .capture name =>
        let n := s.groups + 1
        let (body, s) ← alternatives fuel o (s.numbered name)
        next fuel o (.group n body) (← s.closed)
    | '[' :: rest =>
      let (b, rest) ← classBody (2 * rest.length + 2) rest
      next fuel o (classNode o b) { s with rest := rest }
    | '\\' :: rest =>
      let (node, after) ← escapeNode o s rest
      next fuel o node { s.noting rest with rest := after }
    | '.' :: rest =>
      let set := if o.dotAll then .property .any else .compl (.singleton '\n')
      next fuel o (.set set) { s with rest := rest }
    | '^' :: rest => next fuel o (.anchor .lineStart) { s with rest := rest }
    | '$' :: rest => next fuel o (.anchor .lineEnd) { s with rest := rest }
    | c :: rest =>
      match ← quantifier? (c :: rest) with
      | some _ => throw .nothingToRepeat
      | none => next fuel o (charNode o c) { s with rest := rest }

/-- The rest of a sequence that starts with the given node. -/
def next : Nat → Options → Node → Source → Except PatternError (Node × Source)
  | 0, _, _, _ => throw .nestedTooDeep
  | fuel + 1, o, node, s => do
    let (node, rest) ← quantified o.extended s.rest.length node s.rest
    let (others, s) ← branch fuel o { s with rest := rest }
    pure (node.cat others, s)

end

def parseTree (o : Options) (cs : List Char) : Except PatternError (Node × Source) := do
  let (node, s) ← alternatives (3 * cs.length + 3) o { rest := cs }
  match s.rest with
  | [] => pure (node, s)
  | _ => throw .unmatchedClose

end SyntaxHighlight.Regex
