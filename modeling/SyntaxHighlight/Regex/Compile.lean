import SyntaxHighlight.Regex.Match
import SyntaxHighlight.Regex.Parser

/-! From a source to an expression that can be searched for. -/
namespace SyntaxHighlight.Regex

structure Flags where
  ignoreCase : Bool := false
deriving DecidableEq, Repr, Inhabited

namespace Node

/-- The nodes within a node, itself included, in the order of the source. -/
def subterms : Node → List Node
  | .seq a b => .seq a b :: (a.subterms ++ b.subterms)
  | .alt a b => .alt a b :: (a.subterms ++ b.subterms)
  | .group n body => .group n body :: body.subterms
  | .atomic body => .atomic body :: body.subterms
  | .repetition body low high greedy => .repetition body low high greedy :: body.subterms
  | .look direction negated body => .look direction negated body :: body.subterms
  | node => [node]

def hasGroup (node : Node) : Bool :=
  node.subterms.any fun
    | .group .. => true
    | _ => false

def calls (node : Node) : List GroupRef :=
  node.subterms.filterMap fun
    | .call target => some target
    | _ => none

def findGroup? (node : Node) (n : Nat) : Option Node :=
  node.subterms.find? fun
    | .group m _ => m == n
    | _ => false

end Node

/-- How a node may come back to the group it is part of: not, possibly, in every match, or before a
character is consumed. -/
structure Recursion where
  always : Bool := false
  atOnce : Bool := false
deriving DecidableEq, Repr

/-- What a called group spans, calls followed within calls as far as the fuel goes. Beyond that a
group may be empty, which is also what a group that only calls itself is taken for. -/
def calledWidth (callable : List (GroupRef × Node)) : Nat → GroupRef → Nat × Option Nat
  | 0, _ => (0, none)
  | fuel + 1, target =>
    match callable.lookup target with
    | some body => body.width (calledWidth callable fuel)
    | none => (0, none)

/-- How a node comes back to `target`, given the widths of calls and how they come back. The flag
says that nothing has been consumed so far; groups already `seen` are not entered again. -/
def recursionWithin (target : Node) (called : GroupRef → Nat × Option Nat)
    (callee : List Node → Bool → GroupRef → Recursion) (seen : List Node) :
    Bool → Node → Recursion
  | fresh, .seq a b =>
    let first := recursionWithin target called callee seen fresh a
    if first.atOnce then first
    else
      -- What follows a node is still fresh if the node may match nothing.
      let second := recursionWithin target called callee seen (fresh && (a.width called).1 == 0) b
      if second.atOnce then second else { always := first.always || second.always }
  | fresh, .alt a b =>
    let first := recursionWithin target called callee seen fresh a
    if first.atOnce then first
    else
      let second := recursionWithin target called callee seen fresh b
      -- Alternatives recur in every match only if both do, unlike the parts of a sequence.
      if second.atOnce then second else { always := first.always && second.always }
  | fresh, .group n body =>
    if .group n body = target then { always := true, atOnce := fresh }
    else if seen.contains (.group n body) then {}
    else recursionWithin target called callee seen fresh body
  | fresh, .atomic body => recursionWithin target called callee seen fresh body
  | fresh, .look _ _ body => recursionWithin target called callee seen fresh body
  | fresh, .repetition body low high _ =>
    if high = some 0 then {}
    else
      let r := recursionWithin target called callee seen fresh body
      if r.atOnce then r else { always := r.always && low != 0 }
  | fresh, .call name => callee seen fresh name
  | _, _ => {}

/-- How a call comes back to `target`. The fuel bounds the calls followed one within another. -/
def recursionOfCall (callable : List (GroupRef × Node)) (target : Node) :
    Nat → List Node → Bool → GroupRef → Recursion
  | 0, _, _, _ => {}
  | fuel + 1, seen, fresh, name =>
    match callable.lookup name with
    | some (.group n body) =>
      if .group n body = target then { always := true, atOnce := fresh }
      else if seen.contains (.group n body) then {}
      else
        recursionWithin target (calledWidth callable (callable.length + 1))
          (recursionOfCall callable target fuel) (.group n body :: seen) fresh body
    | _ => {}

/-- The group that a call stands for. The whole expression is a group of its own, number 0. -/
def resolveCall (root : Node) (s : Source) : GroupRef → Except PatternError Node
  | .number 0 => pure (.group 0 root)
  | .number n =>
    match root.findGroup? n with
    | some group => pure group
    | none => throw (.undefinedGroup (toString n))
  | .name name =>
    match s.numbersOf name with
    | [] => throw (.undefinedName name)
    | [n] =>
      match root.findGroup? n with
      | some group => pure group
      | none => throw (.undefinedName name)
    | _ => throw (.ambiguousCall name)

/-- Whether a node refers back to a group beyond the given number of groups. -/
def Node.refersBeyond (groups : Nat) : Node → Bool
  | .backref targets _ => targets.any (groups < ·)
  | _ => false

/-- Whether a node is a negated look-behind with a group in it. -/
def Node.capturesInNegation : Node → Bool
  | .look .behind true body => body.hasGroup
  | _ => false

/-- Whether every match of a called group would call it again. -/
def isEndless (callable : List (GroupRef × Node)) : Node → Bool
  | .group n body =>
    let r :=
      recursionWithin (.group n body) (calledWidth callable (callable.length + 1))
        (recursionOfCall callable (.group n body) (callable.length + 2)) [] true body
    r.always || r.atOnce
  | _ => false

/-- The callable groups. Refuses references to groups that do not exist, calls that never end, and
groups within a negated look-behind. -/
def callableGroups (root : Node) (s : Source) :
    Except PatternError (List (GroupRef × Node)) := do
  if root.subterms.any (Node.refersBeyond s.groups) then throw .invalidBackref
  let callable ← root.calls.eraseDups.mapM fun target ↦ do
    pure (target, ← resolveCall root s target)
  if callable.any fun entry ↦ isEndless callable entry.2 then throw .endlessRecursion
  if root.subterms.any Node.capturesInNegation then throw .invalidLookBehind
  pure callable

/-- The expression of a source. -/
def compile (source : String) (flags : Flags := {}) : Except PatternError Expr := do
  let (root, s) ← parseTree { ignoreCase := flags.ignoreCase } source.toList
  let callable ← callableGroups root s
  pure ⟨source, root, s.groups, callable⟩

end SyntaxHighlight.Regex
