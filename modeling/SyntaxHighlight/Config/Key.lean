import SyntaxHighlight.Config.Value

/-! Where values belong in a configuration, and putting them there. -/
namespace SyntaxHighlight

namespace ConfigValue

def entries : ConfigValue → List (String × ConfigValue)
  | table entries => entries
  | _ => []

def items : ConfigValue → List ConfigValue
  | list items => items
  | _ => []

def entry? (root : ConfigValue) (name : String) : Option ConfigValue := root.entries.lookup name

/-- Enters a value in a table, in place of the one of its name. Anything but a table becomes one. -/
def enter (root : ConfigValue) (name : String) (value : ConfigValue) : ConfigValue :=
  .table (root.entries.filter (·.1 ≠ name) ++ [(name, value)])

mutual

/-- Enters a value in a table. A table goes entry by entry into what is there already. -/
def merge (root : ConfigValue) (name : String) : ConfigValue → ConfigValue
  | .table entries =>
    root.enter name (mergeAll ((root.entry? name).getD (.table [])) entries)
  | value => root.enter name value

def mergeAll (root : ConfigValue) : List (String × ConfigValue) → ConfigValue
  | [] => root
  | (name, value) :: entries => mergeAll (root.merge name value) entries

end

/-- The place that an index names in a list of a length; from the end if it is negative. -/
def place? (index : Int) (length : Nat) : Option Nat :=
  if 0 ≤ index then some index.toNat
  else if -index ≤ length then some (length - (-index).toNat)
  else none

def padded (items : List ConfigValue) (place : Nat) : List ConfigValue :=
  items ++ List.replicate (place + 1 - items.length) .nothing

end ConfigValue

inductive KeyStep where
  | name (s : String)
  | index (i : Int)
deriving DecidableEq, Repr

/-- The name of a top-level value, and the way from it to a value within. -/
structure Key where
  name : String
  steps : List KeyStep
deriving DecidableEq, Repr

namespace Key

open Unicode

def isNameChar (c : Char) : Bool :=
  isAsciiLetter c || isAsciiDigit c || c == ' ' || c == '_' || c == '-'

def name? (cs : List Char) : Option (String × List Char) :=
  match cs.span isNameChar with
  | ([], _) => none
  | (name, rest) => some (String.ofList name, rest)

/-- A number with a sign or without, blanks around it, and the closing bracket. -/
def index? (cs : List Char) : Option (Int × List Char) :=
  let isBlank (c : Char) : Bool := c == ' ' || c == '\t'
  let cs := cs.dropWhile isBlank
  let (negative, cs) := match cs with
    | '-' :: rest => (true, rest)
    | '+' :: rest => (false, rest)
    | _ => (false, cs)
  let (digits, rest) := cs.span isAsciiDigit
  let n := numeralValue 10 digits
  match rest.dropWhile isBlank with
  | ']' :: rest =>
    if digits.isEmpty || greatest64 / 2 + negative.toNat < n then none
    else some (if negative then -(n : Int) else n, rest)
  | _ => none

/-- The steps of a key. Each takes two characters at least. -/
def steps? : Nat → List Char → Option (List KeyStep)
  | 0, _ => none
  | fuel + 1, cs =>
    match cs with
    | [] => some []
    | '.' :: rest => do
      let (s, rest) ← name? rest
      (KeyStep.name s :: ·) <$> steps? fuel rest
    | '[' :: rest => do
      let (i, rest) ← index? rest
      (KeyStep.index i :: ·) <$> steps? fuel rest
    | _ => none

def parse? (s : String) : Option Key := do
  let (name, rest) ← name? s.toList
  pure ⟨name, ← steps? (rest.length + 1) rest⟩

/-- Puts a value at the end of a way that starts from `root`. What is missing or in the way becomes
a table or a list. -/
def setAt (value : ConfigValue) : List KeyStep → ConfigValue → ConfigValue
  | [], _ => value
  | [.name s], root => root.merge s value
  | .name s :: steps, root => root.enter s (setAt value steps ((root.entry? s).getD .nothing))
  | .index i :: steps, root =>
    match ConfigValue.place? i root.items.length with
    | none => root
    | some place =>
      let items := ConfigValue.padded root.items place
      .list (items.set place (setAt value steps (items.getD place .nothing)))

def set (key : Key) (value root : ConfigValue) : ConfigValue :=
  setAt value (.name key.name :: key.steps) root

/-- Sets a value under the key that a text spells, or else right under the text. -/
def setNamed (root : ConfigValue) (entry : String × ConfigValue) : ConfigValue :=
  match parse? entry.1 with
  | some key => key.set entry.2 root
  | none => root.merge entry.1 entry.2

end Key

end SyntaxHighlight
