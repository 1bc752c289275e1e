import SyntaxHighlight.Text.Fields

/-! The parts of file names. -/
namespace SyntaxHighlight.FileName

/-- The name at the end of a path. Slashes at the end and parts that stay in place do not count. -/
def ofPath? (path : String) : Option (List Char) :=
  let parts := (Text.fields '/' path.toList).filter fun part ↦ !part.isEmpty && part ≠ ['.']
  parts.getLast?.filter (· ≠ ['.', '.'])

/-- A name cut at its last dot, which must not be its first character. -/
def split (name : List Char) : List Char × Option (List Char) :=
  let ending := (name.reverse.takeWhile (· ≠ '.')).reverse
  let stem := name.take (name.length - ending.length - 1)
  if stem.isEmpty then (name, none) else (stem, some ending)

/-- What stands before the last dot of the name at the end of a path. -/
def stem? (path : String) : Option String :=
  (ofPath? path).map fun name ↦ String.ofList (split name).1

/-- What stands after the last dot of the name at the end of a path; empty if there is no such
dot. -/
def ending (path : String) : String :=
  String.ofList (((ofPath? path).bind fun name ↦ (split name).2).getD [])

end SyntaxHighlight.FileName
