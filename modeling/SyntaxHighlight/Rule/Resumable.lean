import SyntaxHighlight.Rule.Alternation

/-!
The rules of a mode. A search may be resumed at the same place with the rules up to a rejected one
left out.
-/
namespace SyntaxHighlight.Rule

/-- What happens when a rule wins. -/
inductive Kind where
  /-- A mode begins. -/
  | begins (mode : Nat)
  /-- The current mode, or one it ends with, ends. -/
  | ends
  | illegal
deriving DecidableEq, Repr, Inhabited

end Rule

structure Rule where
  source : String
  kind : Rule.Kind
deriving DecidableEq, Repr, Inhabited

namespace Rule

structure Match where
  rule : Nat
  kind : Kind
  index : Nat
  groups : List (Option Span)
deriving DecidableEq, Repr

def Match.span? (m : Match) : Option Span := m.groups.head?.join

def Match.lexeme (m : Match) (text : Text) : String :=
  match m.span? with
  | some (start, stop) => text.slice start stop
  | none => ""

/-- Rules in order of preference, with the alternation of all of them and of each shorter tail. -/
structure Resumable where
  rules : List Rule
  tails : Array (Thunk (Except GrammarError Alternation))
deriving Inhabited

/-- The alternation of the rules from number `k` on. -/
def tailAlternation (rules : List Rule) (flags : Regex.Flags) (k : Nat) :
    Except GrammarError Alternation :=
  Alternation.ofSources ((rules.drop k).map Rule.source) flags

namespace Resumable

/-- Fails if the alternation of all rules cannot be compiled. Shorter ones are compiled when they
are first needed. -/
def ofRules (rules : List Rule) (flags : Regex.Flags) : Except GrammarError Resumable := do
  let tails := ((List.range (max rules.length 1)).map fun k ↦
    Thunk.mk fun _ ↦ tailAlternation rules flags k).toArray
  let _ ← match tails[0]? with
    | some all => all.get.map some
    | none => pure none
  pure ⟨rules, tails⟩

variable (r : Resumable)

/-- The number of rules that begin a mode. They come first. -/
def beginCount : Nat :=
  r.rules.countP fun rule ↦ match rule.kind with
    | .begins _ => true
    | _ => false

/-- The first match of the rules from number `k` on. -/
def searchTail (k : Nat) (text : Text) (start : Nat) : Except GrammarError (Option Hit) :=
  match r.tails[k]? with
  | some tail => do
    let alternation ← tail.get
    pure (alternation.search? text start)
  | none => pure none

/-- The next match at or after `start`, with the first rule that stays in play after it. Rules from
number `first` on are in play now; when that leaves some out, they count only where the search
starts, and all rules are searched for from one character later. -/
def next (first : Nat) (text : Text) (start : Nat) :
    Except GrammarError (Option (Match × Nat)) := do
  let narrowed ← r.searchTail first text start
  let (base, hit) ←
    if first ≠ 0 ∧ narrowed.map Hit.index ≠ some start then do
      -- A rule that was left out may well match further on, before one of those in play.
      let all ← if start < text.size then r.searchTail 0 text (start + 1) else pure none
      pure (0, all)
    else pure (first, narrowed)
  match hit with
  | none => pure none
  | some hit =>
    let rule := base + hit.position
    let kind := (r.rules[rule]?.map Rule.kind).getD .illegal
    -- After the last begin there is none to go on with, and all rules are in play again.
    let following := if rule + 1 = r.beginCount then 0 else rule + 1
    pure (some (⟨rule, kind, hit.index, hit.groups⟩, following))

end Resumable

end SyntaxHighlight.Rule
