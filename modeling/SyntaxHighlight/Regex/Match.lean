import SyntaxHighlight.Regex.Basic
import SyntaxHighlight.Text.Basic

/-!
Backtracking match. A node runs from a state and hands each state it can reach, most preferred
first, to a continuation; the first state the continuation accepts is the result.
-/
namespace SyntaxHighlight.Regex

open Unicode

/-- What a match looks at: the text, and where the search began. -/
structure Subject where
  text : Text
  searchStart : Nat

/-- A group was entered, or was left after spanning a stretch of the text. -/
inductive CaptureEvent where
  | entered (group start : Nat)
  | left (group start stop : Nat)
deriving DecidableEq, Repr

structure State where
  pos : Nat
  /-- Where the match is reported from, if a `keep` was passed. -/
  kept : Option Nat := none
  /-- What happened to groups, the latest first. -/
  events : List CaptureEvent := []
deriving DecidableEq, Repr

abbrev Matcher := State → (State → Option State) → Option State

/-- The latest start of a group, also of one that is still open. -/
def groupStart (n : Nat) : List CaptureEvent → Option Nat
  | [] => none
  | .entered m start :: rest => if m = n then some start else groupStart n rest
  | .left m start _ :: rest => if m = n then some start else groupStart n rest

def groupStop (n : Nat) : List CaptureEvent → Option Nat
  | [] => none
  | .entered .. :: rest => groupStop n rest
  | .left m _ stop :: rest => if m = n then some stop else groupStop n rest

/-- What a group spans. While a group is open for another round its start is the new one and its
end still the old one. -/
def State.group (s : State) (n : Nat) : Option Span :=
  match groupStart n s.events, groupStop n s.events with
  | some start, some stop => some (start, stop)
  | _, _ => none

def isWordAt (text : Text) (i : Nat) : Bool := (text.get? i).any isWord

def isWordBefore (text : Text) (i : Nat) : Bool := (text.before? i).any isWord

def Anchor.holds (subject : Subject) (pos : Nat) : Anchor → Bool
  | .lineStart => pos = 0 || (subject.text.before? pos = some '\n' && pos != subject.text.size)
  | .lineEnd => pos = subject.text.size || subject.text.get? pos = some '\n'
  | .textStart => pos = 0
  | .textEnd => pos = subject.text.size
  | .textEndOrNewline =>
    pos = subject.text.size ||
      (subject.text.get? pos = some '\n' && pos + 1 = subject.text.size)
  | .searchStart => pos = subject.searchStart
  | .wordBoundary => isWordBefore subject.text pos != isWordAt subject.text pos
  | .notWordBoundary => isWordBefore subject.text pos == isWordAt subject.text pos

/-- Whether the text has characters at `pos` that equal the given ones up to case, one by one;
the position after them. -/
def literalUpToCase (text : Text) : List Char → Nat → Option Nat
  | [], pos => some pos
  | p :: ps, pos =>
    match text.get? pos with
    | some c => if equalUpToCase c p then literalUpToCase text ps (pos + 1) else none
    | none => none

/-- The pattern less the characters that fold to `image`, if it starts with them. -/
def dropImage : List Char → List Char → Option (List Char)
  | [], pattern => some pattern
  | _ :: _, [] => none
  | f :: image, p :: pattern =>
    if expandingFold? p = none ∧ simpleFold p = f then dropImage image pattern else none

/-- A run of characters up to case. A character that folds to several may stand for them on
either side. The fuel bounds the length of the pattern. -/
def foldedRun (text : Text) : Nat → List Char → Matcher
  | _, [], s, k => k s
  | 0, _ :: _, _, _ => none
  | fuel + 1, p :: ps, s, k =>
    match text.get? s.pos with
    | none => none
    | some c =>
      let single :=
        if equalUpToCase c p then foldedRun text fuel ps { s with pos := s.pos + 1 } k else none
      single <|>
      (match expandingFold? c with
        | some image =>
          match dropImage image (p :: ps) with
          | some rest => foldedRun text fuel rest { s with pos := s.pos + 1 } k
          | none => none
        | none => none) <|>
      (match expandingFold? p with
        | some image =>
          match literalUpToCase text image s.pos with
          | some pos => foldedRun text fuel ps { s with pos := pos } k
          | none => none
        | none => none)

def foldedHead (c : Char) : Char := (fold c).headD c

/-- The first of several runs that fits. Only those that start with what the next character folds
to are looked at. -/
def foldedRuns (text : Text) (texts : List (List Char)) : Matcher := fun s k ↦
  match text.get? s.pos with
  | none => none
  | some c =>
    let first := foldedHead c
    texts.findSome? fun run ↦
      match run with
      | p :: _ => if p = first then foldedRun text run.length run s k else none
      | [] => none

def times (m : Matcher) : Nat → Matcher
  | 0, s, k => k s
  | n + 1, s, k => m s fun s' ↦ times m n s' k

def upTo (m : Matcher) (greedy : Bool) : Nat → Matcher
  | 0, s, k => k s
  | n + 1, s, k =>
    if greedy then
      match m s fun s' ↦ upTo m greedy n s' k with
      | some r => some r
      | none => k s
    else
      match k s with
      | some r => some r
      | none => m s fun s' ↦ upTo m greedy n s' k

/-- A matcher any number of times in a row. A round that consumes nothing is the last. Each other
round consumes a character, so fuel above the length of the text never runs out. -/
def anyTimes (m : Matcher) (greedy : Bool) : Nat → Matcher
  | 0, s, k => k s
  | fuel + 1, s, k =>
    let again : State → Option State := fun s' ↦
      -- Going on after a round without progress would never end.
      if s'.pos = s.pos then k s' else anyTimes m greedy fuel s' k
    if greedy then
      match m s again with
      | some r => some r
      | none => k s
    else
      match k s with
      | some r => some r
      | none => m s again

/-- The first state that the matcher reaches from a place before `s` and that ends at `s`, trying
the `n` places from `distance` characters back and further. -/
def endingAt (m : Matcher) (s : State) : Nat → Nat → Option State
  | 0, _ => none
  | n + 1, distance =>
    if distance ≤ s.pos then
      match m { s with pos := s.pos - distance }
          fun s' ↦ if s'.pos = s.pos then some s' else none with
      | some r => some r
      | none => endingAt m s n (distance + 1)
    else none

/-- The position after the characters of a span, read again at `pos`. -/
def readAgain (text : Text) (ignoreCase : Bool) : Nat → Nat → Nat → Option Nat
  | 0, _, pos => some pos
  | n + 1, i, pos =>
    match text.get? i, text.get? pos with
    | some a, some b =>
      if (if ignoreCase then equalUpToCase a b else a == b) then
        readAgain text ignoreCase n (i + 1) (pos + 1)
      else none
    | _, _ => none

/-- The position after the first group of the list that took part and can be read again. -/
def readGroups (text : Text) (ignoreCase : Bool) (s : State) : List Nat → Option Nat
  | [] => none
  | n :: ns =>
    match s.group n with
    | some (start, stop) =>
      match readAgain text ignoreCase (stop - start) start s.pos with
      | some pos => some pos
      | none => readGroups text ignoreCase s ns
    | none => readGroups text ignoreCase s ns

/-- The matcher of a node, given those of the groups it calls. -/
def run (subject : Subject) (callee : GroupRef → Matcher) : Node → Matcher
  | .empty, s, k => k s
  | .set set, s, k =>
    match subject.text.get? s.pos with
    | some c => if set.contains c then k { s with pos := s.pos + 1 } else none
    | none => none
  | .folded text, s, k => foldedRun subject.text text.length text s k
  | .foldedAny texts, s, k => foldedRuns subject.text texts s k
  | .seq a b, s, k => run subject callee a s fun s' ↦ run subject callee b s' k
  | .alt a b, s, k =>
    match run subject callee a s k with
    | some r => some r
    | none => run subject callee b s k
  | .group n body, s, k =>
    run subject callee body { s with events := .entered n s.pos :: s.events }
      fun s' ↦ k { s' with events := .left n s.pos s'.pos :: s'.events }
  | .atomic body, s, k =>
    -- The continuation is not asked within, so it cannot make the body give way.
    match run subject callee body s some with
    | some s' => k s'
    | none => none
  | .repetition body low high greedy, s, k =>
    times (run subject callee body) low s fun s' ↦
      match high with
      | some high => upTo (run subject callee body) greedy (high - low) s' k
      | none =>
        anyTimes (run subject callee body) greedy (subject.text.size + 1 - s'.pos) s' k
  | .look .ahead negated body, s, k =>
    match run subject callee body s some with
    | some s' => if negated then none else k { s' with pos := s.pos }
    | none => if negated then k s else none
  | .look .behind negated body, s, k =>
    -- A call may span anything here, which only widens the range of places to try.
    let (least, greatest) := body.width fun _ ↦ (0, none)
    match endingAt (run subject callee body) s ((greatest.getD s.pos) + 1 - least) least with
    | some s' => if negated then none else k s'
    | none => if negated then k s else none
  | .backref groups ignoreCase, s, k =>
    match readGroups subject.text ignoreCase s groups with
    | some pos => k { s with pos := pos }
    | none => none
  | .call target, s, k => callee target s k
  | .anchor a, s, k => if a.holds subject s.pos then k s else none
  | .keep, s, k => k { s with kept := some s.pos }

/-- The matcher of a callable group, calls nested at most so deep. -/
def runCall (subject : Subject) (callable : List (GroupRef × Node)) : Nat → GroupRef → Matcher
  | 0, _, _, _ => none
  | depth + 1, target, s, k =>
    match callable.lookup target with
    | some body => run subject (runCall subject callable depth) body s k
    | none => none

namespace Expr

variable (e : Expr)

/-- Calls deeper than this would have come back to a group without consuming a character. -/
def callDepth (text : Text) : Nat := (text.size + 1) * (e.callable.length + 1)

/-- The final state of a match that starts at `pos`, in a search that began at `searchStart`. -/
def finalState? (text : Text) (searchStart pos : Nat) : Option State :=
  let subject : Subject := ⟨text, searchStart⟩
  run subject (runCall subject e.callable (e.callDepth text)) e.root { pos := pos } some

/-- The whole match and then every group, in order. -/
def spans (start : Nat) (s : State) : List (Option Span) :=
  -- A reset within a look-ahead may lie beyond the end of the match.
  some (min ((s.kept).getD start) s.pos, s.pos) ::
    (List.range e.groupCount).map fun i ↦ s.group (i + 1)

def matchAt? (text : Text) (searchStart pos : Nat) : Option (List (Option Span)) :=
  (e.finalState? text searchStart pos).map (e.spans pos)

/-- The spans of the first match that starts at one of `n` places from `pos` on. -/
def searchFrom (text : Text) (searchStart : Nat) : Nat → Nat → Option (List (Option Span))
  | 0, _ => none
  | n + 1, pos =>
    match e.matchAt? text searchStart pos with
    | some spans => some spans
    | none => searchFrom text searchStart n (pos + 1)

/-- The first match at or after `start`, with every group. -/
def captures? (text : Text) (start : Nat) : Option (List (Option Span)) :=
  e.searchFrom text start (text.size + 1 - start) start

def find? (text : Text) (start : Nat) : Option Span :=
  (e.captures? text start).bind fun spans ↦ spans.head?.join

def matchesAt (text : Text) (pos : Nat) : Bool :=
  pos ≤ text.size && (e.finalState? text pos pos).isSome

/-- Whether the first match starts with the text. -/
def startsWith (text : Text) : Bool :=
  (e.find? text 0).any fun span ↦ span.1 = 0

/-- The matches from `start` on, one after another. An empty match that touches the end of the one
before it is passed over for a search one character later. -/
def findFrom (text : Text) : Nat → Nat → Option Nat → List Span
  | 0, _, _ => []
  | fuel + 1, start, previousEnd =>
    match e.find? text start with
    | none => []
    | some (first, last) =>
      if first = last ∧ previousEnd = some last then findFrom text fuel (start + 1) previousEnd
      else (first, last) :: findFrom text fuel last (some last)

/-- All matches that do not overlap. Every second search moves on by a character at least. -/
def findAll (text : Text) : List Span := e.findFrom text (2 * text.size + 3) 0 none

end Expr

end SyntaxHighlight.Regex
