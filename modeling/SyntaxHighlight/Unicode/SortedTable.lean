/-! Look-up in arrays sorted by key. -/
namespace SyntaxHighlight.Unicode

variable {α : Type}

/-- Position of the last entry of `table[lo, hi)` whose key is at most `n`, or `lo - 1`. The fuel
bounds the number of halvings. -/
def floorIndex (table : Array α) (key : α → Nat) (n : Nat) : Nat → Nat → Nat → Nat
  | 0, lo, _ => lo - 1
  | fuel + 1, lo, hi =>
    if lo < hi then
      let mid := (lo + hi) / 2
      match table[mid]? with
      | some entry =>
        if key entry ≤ n then floorIndex table key n fuel (mid + 1) hi
        else floorIndex table key n fuel lo mid
      | none => lo - 1
    else lo - 1

/-- The entry with the greatest key that is at most `n`. -/
def floorBy (table : Array α) (key : α → Nat) (n : Nat) : Option α :=
  match table[floorIndex table key n (table.size.log2 + 2) 0 table.size]? with
  | some entry => if key entry ≤ n then some entry else none
  | none => none

def floorEntry (table : Array (Nat × α)) (n : Nat) : Option (Nat × α) := floorBy table Prod.fst n

/-- Disjoint inclusive ranges of code points in increasing order. -/
abbrev RangeTable := Array (Nat × Nat)

def RangeTable.contains (table : RangeTable) (code : Nat) : Bool :=
  match floorEntry table code with
  | some (_, last) => code ≤ last
  | none => false

end SyntaxHighlight.Unicode
