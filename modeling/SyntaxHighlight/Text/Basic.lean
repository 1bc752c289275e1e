/-!
Texts as arrays of characters. Positions count characters, so every position lies on a character
boundary; byte offsets are derived from them where an answer is given in bytes.
-/
namespace SyntaxHighlight

structure Text where
  chars : Array Char
deriving DecidableEq, Inhabited

/-- The number of bytes that characters occupy in UTF-8. -/
def byteLength : List Char → Nat
  | [] => 0
  | c :: cs => c.utf8Size + byteLength cs

namespace Text

def ofString (s : String) : Text := ⟨s.toList.toArray⟩

def toString (t : Text) : String := String.ofList t.chars.toList

def size (t : Text) : Nat := t.chars.size

def get? (t : Text) (i : Nat) : Option Char := t.chars[i]?

def before? (t : Text) (i : Nat) : Option Char := if i = 0 then none else t.get? (i - 1)

def slice (t : Text) (start stop : Nat) : String :=
  String.ofList (t.chars.extract start stop).toList

def rest (t : Text) (start : Nat) : String := t.slice start t.size

def bytes (t : Text) : Nat := byteLength t.chars.toList

/-- The byte offset of a position. Positions past the end count one byte each. -/
def byteOffset (t : Text) (i : Nat) : Nat :=
  byteLength (t.chars.extract 0 i).toList + (i - t.size)

/-- The number of leading characters that lie wholly within the first `n` bytes. -/
def charsWithin : List Char → Nat → Nat
  | [], _ => 0
  | c :: cs, n => if c.utf8Size ≤ n then charsWithin cs (n - c.utf8Size) + 1 else 0

/-- The last position whose byte offset is at most `n`. -/
def floorPosition (t : Text) (n : Nat) : Nat := charsWithin t.chars.toList n

/-- The first position whose byte offset is at least `n`, or the end of the text. -/
def ceilPosition (t : Text) (n : Nat) : Nat :=
  let i := t.floorPosition n
  if t.byteOffset i < n ∧ i < t.size then i + 1 else i

end Text

/-- A stretch of a text, from one position up to another. -/
abbrev Span := Nat × Nat

end SyntaxHighlight
