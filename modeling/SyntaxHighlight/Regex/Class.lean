import SyntaxHighlight.Regex.Escape

/-!
Character classes in brackets: members, ranges, named classes, classes within classes, and
intersections.
-/
namespace SyntaxHighlight.Regex

open Unicode

inductive ClassToken where
  | char (c : Char)
  | members (s : CharSet)
  | hyphen
  /-- A bracket opens a class within the class. -/
  | inner
  /-- Two ampersands. -/
  | both
  | close
  | stop
deriving Repr

/-- Whether `:]` is found before a closing bracket, escaped characters left out. -/
def posixCloses : List Char → Bool
  | ':' :: ']' :: _ => true
  | '\\' :: _ :: cs => posixCloses cs
  | ']' :: _ => false
  | _ :: cs => posixCloses cs
  | [] => false

/-- Whether an unescaped closing bracket is found. -/
def bracketCloses : List Char → Bool
  | '\\' :: _ :: cs => bracketCloses cs
  | ']' :: _ => true
  | _ :: cs => bracketCloses cs
  | [] => false

def posixNames : List (String × Property) :=
  [("alnum", .alnum), ("alpha", .alpha), ("blank", .blank), ("cntrl", .cntrl),
    ("digit", .digit), ("graph", .graph), ("lower", .lower), ("print", .print),
    ("punct", .punct), ("space", .space), ("upper", .upper), ("xdigit", .xdigit),
    ("ascii", .ascii), ("word", .word)]

/-- Whether a class starts with a circumflex, and what follows that. -/
def classNegation : List Char → Bool × List Char
  | '^' :: cs => (true, cs)
  | cs => (false, cs)

/-- The class whose name a text starts with. -/
def posixProperty? (cs : List Char) : Option (String × Property) :=
  posixNames.find? fun entry ↦ entry.1.toList.isPrefixOf cs

/-- A named class, from its name on. None if the brackets turn out to hold no name at all, as when
the colon that closes it is too far away. -/
def posixName (negated : Bool) (cs : List Char) :
    Except PatternError (Option (CharSet × List Char)) :=
  match posixProperty? cs with
  | some (name, p) =>
    match cs.drop name.length with
    | ':' :: ']' :: rest =>
      let set : CharSet := .property p
      pure (some (if negated then .compl set else set, rest))
    | _ => throw .invalidPosixClass
  | none =>
    let (name, rest) := cs.span fun c ↦ c != ':' && c != ']'
    match rest with
    -- The engine looks for the closing colon among the first twenty characters only.
    | ':' :: ']' :: _ => if name.length ≤ 20 then throw .invalidPosixClass else pure none
    | _ => pure none

/-- A named class, from what follows `[:`. -/
def posixClass (cs : List Char) : Except PatternError (Option (CharSet × List Char)) :=
  posixName (classNegation cs).1 (classNegation cs).2

/-- What a backslash and what belongs to it stand for within a class. -/
def escapedMember (cs : List Char) : Except PatternError (ClassToken × List Char) := do
  match cs.head?.bind escapedClass? with
  | some set => pure (.members set, cs.drop 1)
  | none =>
    match ← escapedProperty? cs with
    | some (set, rest) => pure (.members set, rest)
    | none =>
      match ← codePointEscape? cs with
      | some (c, rest) => pure (.char c, rest)
      | none => do
        let (c, rest) ← spelledChar cs
        pure (.char c, rest)

/-- The next piece of a class. -/
def classToken : List Char → Except PatternError (ClassToken × List Char)
  | [] => pure (.stop, [])
  | ']' :: cs => pure (.close, cs)
  | '-' :: cs => pure (.hyphen, cs)
  | '&' :: '&' :: cs => pure (.both, cs)
  | '[' :: ':' :: cs => do
    if posixCloses cs then
      match ← posixClass cs with
      | some (set, rest) => pure (.members set, rest)
      | none => pure (.char '[', ':' :: cs)
    else pure (.inner, ':' :: cs)
  | '[' :: cs => pure (.inner, cs)
  | ['\\'] => throw .endAtEscape
  | '\\' :: c :: cs => escapedMember (c :: cs)
  | c :: cs => pure (.char c, cs)

/-- What was read last within a class. -/
inductive ClassPlace where
  | start
  /-- A character that may yet turn out to start a range. -/
  | char (c : Char)
  | members
  | range (first : Char)
  /-- A range or an inner class. -/
  | done
deriving DecidableEq, Repr

/-- A class half read: the intersection of the operands before the last `&&`, the members of the
current operand, and what was read last. -/
structure ClassState where
  before : Option CharSet
  members : CharSet
  place : ClassPlace

namespace ClassState

variable (s : ClassState)

def add (set : CharSet) : ClassState :=
  { s with members := match s.members with
    | .empty => set
    | members => .union members set }

/-- Takes in the character that is still open, if any. -/
def settle : ClassState :=
  match s.place with
  | .char c => s.add (.singleton c)
  | .range c => (s.add (.singleton c)).add (.singleton '-')
  | _ => s

def pushChar (c : Char) : Except PatternError ClassState :=
  match s.place with
  | .range first =>
    if c < first then throw .emptyRange
    else pure { s.add (.range first c) with place := .done }
  | _ => pure { s.settle with place := .char c }

def pushMembers (set : CharSet) : Except PatternError ClassState :=
  match s.place with
  | .range _ => throw .classValueAtRangeEnd
  | _ => pure { s.settle.add set with place := .members }

def pushInner (set : CharSet) : ClassState := { s.settle.add set with place := .done }

def total : CharSet :=
  let members := s.settle.members
  match s.before with
  | some before => .inter before members
  | none => members

/-- Ends an operand of an intersection. -/
def conjoin : ClassState := ⟨some s.total, .empty, .start⟩

end ClassState

/-- Whether a hyphen is followed by the end of an operand, which makes it a member. -/
def endsOperand : ClassToken → Bool
  | .close | .both => true
  | _ => false

/-- Takes in a hyphen, which makes a range of a character before it unless an operand ends there. -/
def ClassState.pushHyphen (s : ClassState) (rest : List Char) : Except PatternError ClassState :=
  match s.place with
  | .char first => do
    let (next, _) ← classToken rest
    if endsOperand next then s.pushChar '-' else pure { s with place := .range first }
  | .members => do
    let (next, _) ← classToken rest
    if endsOperand next then s.pushChar '-' else throw .unmatchedRange
  | _ => s.pushChar '-'

/-- What the brackets of a class enclose, and whether it is what the class leaves out. -/
structure Bracketed where
  negated : Bool
  members : CharSet

def Bracketed.toSet (b : Bracketed) : CharSet := if b.negated then .compl b.members else b.members

/-- A class with nothing read of it, but for a closing bracket that comes first, which is a member
if another one follows. -/
def classStart : List Char → Except PatternError (ClassState × List Char)
  | ']' :: cs =>
    if bracketCloses cs then pure (⟨none, .empty, .char ']'⟩, cs) else throw .emptyClass
  | cs => pure (⟨none, .empty, .start⟩, cs)

mutual

/-- A class, from what follows its opening bracket. -/
def classBody : Nat → List Char → Except PatternError (Bracketed × List Char)
  | 0, _ => throw .nestedTooDeep
  | fuel + 1, cs => do
    let (s, rest) ← classStart (classNegation cs).2
    let (set, rest) ← classItems fuel s rest
    pure (⟨(classNegation cs).1, set⟩, rest)

/-- The rest of a class. -/
def classItems : Nat → ClassState → List Char → Except PatternError (CharSet × List Char)
  | 0, _, _ => throw .nestedTooDeep
  | fuel + 1, s, cs => do
    let (token, rest) ← classToken cs
    match token with
    | .stop => throw .unclosedClass
    | .close => pure (s.total, rest)
    | .char c => classItems fuel (← s.pushChar c) rest
    | .members set => classItems fuel (← s.pushMembers set) rest
    | .both => classItems fuel s.conjoin rest
    | .inner =>
      let (inner, rest) ← classBody fuel rest
      classItems fuel (s.pushInner inner.toSet) rest
    | .hyphen => classItems fuel (← s.pushHyphen rest) rest

end

end SyntaxHighlight.Regex
