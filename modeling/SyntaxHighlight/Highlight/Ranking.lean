import SyntaxHighlight.Unicode.Properties

/-!
Ranking results. More relevance is better; of two equally relevant results, one in a language comes
before one in a language that extends it. All else stays in order.
-/
namespace SyntaxHighlight

/-- What counts about a result. -/
structure Standing where
  language : Option String
  relevance : Nat
deriving DecidableEq, Repr

namespace Ranking

def asciiFold (c : Char) : Char :=
  if Unicode.isAsciiUpper c then Char.ofNat (c.toNat + 32) else c

def equalInAscii (a b : String) : Bool := a.toList.map asciiFold == b.toList.map asciiFold

variable (supersetOf : String → Option String)

def extends? (language base : String) : Bool :=
  (supersetOf language).any (equalInAscii · base)

/-- Whether a result moves ahead of the one right before it. -/
def overtakes (later earlier : Standing) : Bool :=
  earlier.relevance < later.relevance ||
    earlier.relevance == later.relevance &&
      match earlier.language, later.language with
      | some language, some base => extends? supersetOf language base
      | _, _ => false

variable {α : Type} (standing : α → Standing)

/-- Moves a result ahead while it overtakes. The results before it come last first. -/
def advance (x : α) : List α → List α
  | [] => [x]
  | y :: ys =>
    -- The first result that is not overtaken ends the way ahead, whatever stands before it.
    if overtakes supersetOf (standing x) (standing y) then y :: advance x ys else x :: y :: ys

def rank (results : List α) : List α :=
  (results.foldl (fun ranked x ↦ advance supersetOf standing x ranked) []).reverse

end Ranking

end SyntaxHighlight
