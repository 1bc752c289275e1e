import SyntaxHighlight.Regex.CharSet

/-! Regular expressions as trees. -/
namespace SyntaxHighlight.Regex

/-- Places that match without consuming a character. -/
inductive Anchor where
  | lineStart | lineEnd
  | textStart | textEnd
  /-- The end, or before a newline that ends the text. -/
  | textEndOrNewline
  /-- Where the search began. -/
  | searchStart
  | wordBoundary | notWordBoundary
deriving DecidableEq, Repr

/-- How a group is called upon: by its number, 0 for the whole expression, or by name. -/
inductive GroupRef where
  | number (n : Nat)
  | name (s : String)
deriving DecidableEq, Repr

inductive Direction where
  | ahead | behind
deriving DecidableEq, Repr

inductive Node where
  | empty
  | set (s : CharSet)
  /-- A run of characters compared up to case; a fold of several characters may stand for one. -/
  | folded (text : List Char)
  /-- One of several such runs, each in folded form; the first that fits is preferred. -/
  | foldedAny (texts : List (List Char))
  | seq (a b : Node)
  | alt (a b : Node)
  | group (n : Nat) (body : Node)
  /-- Once matched, its other ways to match are forgotten. -/
  | atomic (body : Node)
  /-- At least `low` times and at most `high` times, if bounded. -/
  | repetition (body : Node) (low : Nat) (high : Option Nat) (greedy : Bool)
  | look (direction : Direction) (negated : Bool) (body : Node)
  /-- What the first of the groups that took part and fits has matched. -/
  | backref (groups : List Nat) (ignoreCase : Bool)
  | call (target : GroupRef)
  | anchor (a : Anchor)
  /-- The match is reported from here. -/
  | keep
deriving DecidableEq, Repr, Inhabited

namespace Node

/-- Sequence, with neighbouring runs of folded characters joined. -/
def cat : Node → Node → Node
  | .empty, b => b
  | a, .empty => a
  | .folded xs, .folded ys => .folded (xs ++ ys)
  | .folded xs, .seq (.folded ys) rest => .seq (.folded (xs ++ ys)) rest
  | .seq a b, c => .seq a (cat b c)
  | a, b => .seq a b

/-- The least and the greatest number of characters a match of the node spans, given those of the
groups it calls; no greatest when unbounded. -/
def width (called : GroupRef → Nat × Option Nat) : Node → Nat × Option Nat
  | .empty | .look .. | .anchor _ | .keep => (0, some 0)
  | .set _ => (1, some 1)
  | .folded text => ((text.length + 2) / 3, some (3 * text.length))
  | .foldedAny texts =>
    (((texts.map fun text ↦ (text.length + 2) / 3).min?).getD 0,
      (texts.map fun text ↦ 3 * text.length).max?)
  | .seq a b =>
    let (lowA, highA) := a.width called
    let (lowB, highB) := b.width called
    (lowA + lowB, highA.bind fun x ↦ highB.map (x + ·))
  | .alt a b =>
    let (lowA, highA) := a.width called
    let (lowB, highB) := b.width called
    (min lowA lowB, highA.bind fun x ↦ highB.map (max x ·))
  | .group _ body | .atomic body => body.width called
  | .repetition body low high _ =>
    let (least, greatest) := body.width called
    (low * least,
      if greatest = some 0 then some 0
      else high.bind fun x ↦ greatest.map (x * ·))
  | .backref .. => (0, none)
  | .call target => called target

end Node

structure Expr where
  source : String
  root : Node
  groupCount : Nat
  /-- The groups that calls may name, each with its number and body. -/
  callable : List (GroupRef × Node)
deriving Inhabited

end SyntaxHighlight.Regex
