import SyntaxHighlight.Mode.Basic

/-!
Modes together with the place where a grammar has them. A mode that is written once is one mode,
however often it is placed; two modes that are written alike are two.
-/
namespace SyntaxHighlight

/-- A way from a mode to one that is written within it. -/
inductive PlaceStep where
  | child (i : Nat)
  | start
  | variant (i : Nat)
deriving DecidableEq, Repr

/-- Where a mode is written: the name under which the way to it starts, if that is not the
outermost mode, and the way, last step first. -/
structure Place where
  origin : Option String
  steps : List PlaceStep
deriving DecidableEq, Repr, Inhabited

def Place.step (p : Place) (s : PlaceStep) : Place := { p with steps := s :: p.steps }

structure Template where
  mode : Mode
  /-- What tells the mode from others; modes that are made up have none. -/
  place : Option Place
  /-- The place within which the modes that it contains are written. -/
  contents : Place
  /-- The place within which the mode is written that it starts. -/
  following : Place
  /-- Whether the mode is made up around another one, which is written where this one is. -/
  madeUp : Bool
deriving Inhabited

namespace Template

variable (t : Template)

def written (mode : Mode) (place : Place) : Template := ⟨mode, some place, place, place, false⟩

/-- The outermost mode, which is never placed again. -/
def root (mode : Mode) : Template := ⟨mode, none, ⟨none, []⟩, ⟨none, []⟩, false⟩

/-- The mode at a place among those contained. -/
def child (i : Nat) (mode : Mode) : Template :=
  if t.madeUp then { t with mode, place := none, madeUp := false }
  else written mode (t.contents.step (.child i))

/-- The mode that the mode starts. If there is something to be matched before the mode, that one is
made up to hold the mode itself. -/
def next (mode : Mode) : Template :=
  if t.mode.beforeMatch.isSome then { t with mode, place := none, madeUp := true }
  else written mode (t.following.step .start)

def variantAt (i : Nat) (v : Mode) : Template where
  mode := t.mode.overlay v
  place := t.place.map (·.step (.variant i))
  -- The modes that a variant does not replace are those of the mode, in their own place.
  contents := if v.contains.isEmpty then t.contents else t.contents.step (.variant i)
  following := if v.starts.isNone then t.following else t.following.step (.variant i)
  madeUp := t.madeUp

/-- The modes that take the place of the mode: its variants if it has any. -/
def alternatives : List Template :=
  if t.mode.variants.isEmpty then [t] else t.mode.variants.mapIdx t.variantAt

end Template

end SyntaxHighlight
