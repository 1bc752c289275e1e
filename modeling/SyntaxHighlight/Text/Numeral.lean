import SyntaxHighlight.Unicode.Properties

/-! Numbers written with digits. -/
namespace SyntaxHighlight

open Unicode

def digitValue (c : Char) : Nat :=
  if isAsciiDigit c then c.toNat - '0'.toNat
  else if 'a' ≤ c ∧ c ≤ 'f' then c.toNat - 'a'.toNat + 10
  else if 'A' ≤ c ∧ c ≤ 'F' then c.toNat - 'A'.toNat + 10
  else 0

def numeralValue (base : Nat) (digits : List Char) : Nat :=
  digits.foldl (fun n c ↦ n * base + digitValue c) 0

/-- The number that decimal digits spell, a plus sign ahead of them allowed, if it is at most
`greatest`. -/
def natural? (greatest : Nat) (cs : List Char) : Option Nat :=
  let digits := match cs with
    | '+' :: rest => rest
    | _ => cs
  let n := numeralValue 10 digits
  if digits.isEmpty || !digits.all isAsciiDigit || greatest < n then none else some n

def greatest32 : Nat := 0xffffffff

def greatest64 : Nat := 0xffffffffffffffff

end SyntaxHighlight
