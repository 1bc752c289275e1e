import SyntaxHighlight.Text.Numeral

/-! Numbers and code points in the source of a regular expression. -/
namespace SyntaxHighlight.Regex

open Unicode

def isOctalDigit (c : Char) : Bool := '0' ≤ c && c ≤ '7'

/-- At most `most` leading characters that satisfy `p`, and the rest. -/
def spanAtMost (p : Char → Bool) : Nat → List Char → List Char × List Char
  | 0, cs => ([], cs)
  | _, [] => ([], [])
  | most + 1, c :: cs =>
    if p c then
      let (digits, rest) := spanAtMost p most cs
      (c :: digits, rest)
    else ([], c :: cs)

/-- The largest number that a group reference or a repetition may spell out before it counts as
too big to read. -/
def greatestNumber : Nat := 2147483647

/-- The decimal number that the characters start with, if any, and the rest. -/
def decimal? (cs : List Char) : Option Nat × List Char :=
  match cs.span isAsciiDigit with
  | ([], rest) => (none, rest)
  | (digits, rest) => (some (numeralValue 10 digits), rest)

/-- The number of bytes of a UTF-8 sequence, from its first byte. -/
def sequenceLength (first : Nat) : Nat :=
  if first < 0xc2 then 1
  else if first < 0xe0 then 2
  else if first < 0xf0 then 3
  else if first < 0xf5 then 4
  else 1

def decodeBytes? : List Nat → Option Char
  | [a] => if a < 0x80 then some (Char.ofNat a) else none
  | [a, b] =>
    if 0xc2 ≤ a ∧ a < 0xe0 ∧ 0x80 ≤ b ∧ b < 0xc0 then
      some (Char.ofNat ((a - 0xc0) * 64 + (b - 0x80)))
    else none
  | [a, b, c] =>
    let code := (a - 0xe0) * 4096 + (b - 0x80) * 64 + (c - 0x80)
    if 0xe0 ≤ a ∧ a < 0xf0 ∧ 0x80 ≤ b ∧ b < 0xc0 ∧ 0x80 ≤ c ∧ c < 0xc0 ∧
        0x800 ≤ code ∧ ¬(0xd800 ≤ code ∧ code < 0xe000) then
      some (Char.ofNat code)
    else none
  | [a, b, c, d] =>
    let code := (a - 0xf0) * 262144 + (b - 0x80) * 4096 + (c - 0x80) * 64 + (d - 0x80)
    if 0xf0 ≤ a ∧ a < 0xf5 ∧ 0x80 ≤ b ∧ b < 0xc0 ∧ 0x80 ≤ c ∧ c < 0xc0 ∧ 0x80 ≤ d ∧ d < 0xc0 ∧
        0x10000 ≤ code ∧ code < 0x110000 then
      some (Char.ofNat code)
    else none
  | _ => none

end SyntaxHighlight.Regex
