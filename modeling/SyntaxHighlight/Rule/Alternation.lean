import SyntaxHighlight.Pattern.Reference

/-!
One alternation over several sources, so that a single search tells which of them matches first.
The first group of a source that takes part tells which one it is; the groups after it are the
source's own captures.
-/
namespace SyntaxHighlight.Rule

structure Alternation where
  /-- None when there are no sources. -/
  expr : Option Regex.Expr
  /-- The number of the group around each source. -/
  wrappers : List Nat
deriving Inhabited

structure Hit where
  position : Nat
  index : Nat
  /-- The whole match, the source's captures, and the groups of the sources after it. -/
  groups : List (Option Span)
deriving DecidableEq, Repr

namespace Alternation

/-- The numbers of the groups around sources, the first of which has number `next`. -/
def wrappersFrom (next : Nat) : List String → Except GrammarError (List Nat)
  | [] => pure []
  | source :: sources => do
    -- Counting compiles the source, so one that is broken by itself is found here.
    let own ← Pattern.countGroups source
    let others ← wrappersFrom (next + own + 1) sources
    pure (next :: others)

def ofSources (sources : List String) (flags : Regex.Flags) : Except GrammarError Alternation := do
  if sources.isEmpty then return ⟨none, []⟩
  let wrappers ← wrappersFrom 1 sources
  let expr ← Pattern.compile (Pattern.rewriteReferences sources "|") flags
  pure ⟨some expr, wrappers⟩

variable (a : Alternation)

/-- The first of the wrapping groups that took part, with the groups from it on. -/
def winner? (spans : List (Option Span)) : Nat → List Nat → Option Hit
  | _, [] => none
  | position, wrapper :: wrappers =>
    match spans[wrapper]?.join with
    | some (start, _) => some ⟨position, start, spans.drop wrapper⟩
    | none => winner? spans (position + 1) wrappers

def search? (text : Text) (start : Nat) : Option Hit := do
  let expr ← a.expr
  let spans ← expr.captures? text start
  winner? spans 0 a.wrappers

end Alternation

end SyntaxHighlight.Rule
