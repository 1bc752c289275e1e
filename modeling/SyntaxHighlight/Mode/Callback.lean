import SyntaxHighlight.Dictionary
import SyntaxHighlight.Text.Basic

/-!
What a mode does when its begin or its end has matched. A callback may reject the match, and it
may keep notes for the callbacks that follow while the mode is open.
-/
namespace SyntaxHighlight

/-- A match as a callback sees it. Groups are stretches of the whole text. -/
structure MatchData where
  text : Text
  groups : List (Option Span)
deriving DecidableEq

namespace MatchData

variable (m : MatchData)

def group? (i : Nat) : Option Span := m.groups[i]?.join

/-- What a group has matched, if it took part. -/
def get? (i : Nat) : Option String :=
  (m.group? i).map fun (start, stop) ↦ m.text.slice start stop

def index : Nat := ((m.group? 0).map Prod.fst).getD 0

def lexeme : String := (m.get? 0).getD ""

def preceding? : Option Char := m.text.before? m.index

end MatchData

/-- The notes of an open mode. -/
abbrev Scratch := Dictionary String

/-- A step of a callback. It may be any function of the match and the notes. -/
structure Action where
  /-- Whether the step rejects the match. -/
  rejects : MatchData → Scratch → Bool := fun _ _ ↦ false
  /-- The notes after the step. -/
  noted : MatchData → Scratch → Scratch := fun _ notes ↦ notes
deriving Inhabited

namespace Action

def ignore : Action where
  rejects _ _ := true

def ignoreIfText (text : String) (group : Nat) : Action where
  rejects m _ := m.get? group == some text

def ignoreUnlessText (text : String) (group : Nat) : Action where
  rejects m _ := m.get? group != some text

/-- Rejects a match that stands after the given character, or at the start of the text. -/
def ignoreAfter (before : Option Char) : Action where
  rejects m _ := m.preceding? == before

/-- Rejects matches from a byte offset on. -/
def ignoreFrom (offset : Nat) : Action where
  rejects m _ := offset ≤ m.text.byteOffset m.index

/-- Notes what a group has matched, nothing if it took no part. -/
def store (key : String) (group : Nat) : Action where
  noted m notes := notes.insert key ((m.get? group).getD "")

/-- Rejects the match unless a group has matched what is noted; both may be missing. -/
def ignoreUnlessStored (key : String) (group : Nat) : Action where
  rejects m notes := notes.get? key != m.get? group

/-- Rejects the match unless a group, empty if it took no part, has matched what is noted. -/
def ignoreUnlessRepeated (key : String) (group : Nat) : Action where
  rejects m notes := notes.get? key != some ((m.get? group).getD "")

end Action

abbrev Callback := List Action

/-- Whether a callback rejects the match, and its notes. Every step is taken, also after one that
rejects the match. -/
def Callback.run (m : MatchData) (notes : Scratch) : Callback → Bool × Scratch
  | [] => (false, notes)
  | action :: actions =>
    let (rejected, notes') := run m (action.noted m notes) actions
    (action.rejects m notes || rejected, notes')

end SyntaxHighlight
