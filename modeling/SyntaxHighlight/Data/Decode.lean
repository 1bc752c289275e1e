import SyntaxHighlight.Data.Basic
import SyntaxHighlight.Dictionary
import SyntaxHighlight.Text.Numeral

/-!
Values out of structured data. Data that has to be looked at as a whole before it is known what it
stands for is `bare` of its wording: a word in it is what it means and no longer a text.
-/
namespace SyntaxHighlight

inductive DataError where
  | malformed
  /-- A text other than the mark for the mode itself stands where a mode should. -/
  | unknownMarker (text : String)
deriving DecidableEq, Repr

namespace Data

variable {α : Type}

def asText (bare : Bool) : Data → Except DataError String
  | .text s => pure s
  | .word s _ => if bare then throw .malformed else pure s
  | _ => throw .malformed

def flag (d : Data) : Except DataError Bool :=
  match d.meaning with
  | .bool b => pure b
  | _ => throw .malformed

/-- A number that 32 bits hold. -/
def number (d : Data) : Except DataError Nat :=
  match d.meaning with
  | .integer n => if 0 ≤ n ∧ n ≤ greatest32 then pure n.toNat else throw .malformed
  | _ => throw .malformed

def optional (read : Data → Except DataError α) (d : Data) : Except DataError (Option α) :=
  match d.meaning with
  | .null => pure none
  | _ => some <$> read d

/-- The items of a list. Nothing at all is an empty list, unless it is bare. -/
def items (bare : Bool) : Data → Except DataError (List Data)
  | .list items => pure items
  | .word s _ => if s.isEmpty && !bare then pure [] else throw .malformed
  | _ => throw .malformed

/-- The entries of a map. Nothing at all is an empty map, unless it is bare. -/
def entries (bare : Bool) : Data → Except DataError (List (Data × Data))
  | .map entries => pure entries
  | .word s _ => if s.isEmpty && !bare then pure [] else throw .malformed
  | _ => throw .malformed

def texts (bare : Bool) (d : Data) : Except DataError (List String) := do
  (← d.items bare).mapM (asText bare)

/-- Values under names. A name that is repeated takes the last value. -/
def dictionary (bare : Bool) (read : Data → Except DataError α) (d : Data) :
    Except DataError (Dictionary α) := do
  let named ← (← d.entries bare).mapM fun (key, value) ↦ do
    pure (← key.asText bare, ← read value)
  pure (.ofList named)

/-- The field that a key stands for: one that has its name, or its place among the fields. Keys of
no field are skipped. -/
def field (names : List String) (bare : Bool) (key : Data) : Except DataError (Option String) :=
  match if bare then key.meaning else key with
  | .text s | .word s _ => pure (if names.contains s then some s else none)
  | .integer n => if 0 ≤ n then pure names[n.toNat]? else throw .malformed
  | _ => throw .malformed

def textOr (fromText : String → α) (other : Data → Except DataError α) (d : Data) :
    Except DataError α :=
  if d.isBroken then throw .malformed
  else
    match d.asText true with
    | .ok s => pure (fromText s)
    | .error _ => other d

def oneOrMore (one : String → α) (more : List String → α) : Data → Except DataError α :=
  textOr one fun d ↦ more <$> d.texts true

end Data

end SyntaxHighlight
