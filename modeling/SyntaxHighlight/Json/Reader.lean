import SyntaxHighlight.Json.Basic
import SyntaxHighlight.Text.Numeral

/-!
Reading JSON. Where the text is not JSON the value holds a break, so that a reader of the value
comes to the break in its turn and after all that precedes it.
-/
namespace SyntaxHighlight.Json

open Unicode

def isBlank (c : Char) : Bool := c == ' ' || c == '\t' || c == '\n' || c == '\r'

def skipBlanks (cs : List Char) : List Char := cs.dropWhile isBlank

def hexUnit? : List Char → Option (Nat × List Char)
  | a :: b :: c :: d :: rest =>
    if [a, b, c, d].all isHexDigit then some (numeralValue 16 [a, b, c, d], rest) else none
  | _ => none

/-- A character given by one unit, or by two that form a pair. -/
def unitEscape? (cs : List Char) : Option (Char × List Char) := do
  let (first, rest) ← hexUnit? cs
  if first < 0xd800 ∨ 0xe000 ≤ first then
    return (Char.ofNat first, rest)
  if 0xdc00 ≤ first then none
  match rest with
  | '\\' :: 'u' :: rest =>
    let (second, rest) ← hexUnit? rest
    if 0xdc00 ≤ second ∧ second < 0xe000 then
      some (Char.ofNat (0x10000 + (first - 0xd800) * 0x400 + (second - 0xdc00)), rest)
    else none
  | _ => none

def simpleEscape? : Char → Option Char
  | '\x22' => some '\x22'
  | '\\' => some '\\'
  | '/' => some '/'
  | 'b' => some '\x08'
  | 'f' => some '\x0c'
  | 'n' => some '\n'
  | 'r' => some '\r'
  | 't' => some '\t'
  | _ => none

/-- The characters of a string, last first, up to its closing quote. -/
def stringBody : Nat → List Char → List Char → Option (List Char × List Char)
  | 0, _, _ => none
  | fuel + 1, read, cs =>
    match cs with
    | '\x22' :: rest => some (read, rest)
    | '\\' :: 'u' :: rest =>
      match unitEscape? rest with
      | some (c, rest) => stringBody fuel (c :: read) rest
      | none => none
    | '\\' :: c :: rest =>
      match simpleEscape? c with
      | some c => stringBody fuel (c :: read) rest
      | none => none
    | c :: rest => if c.toNat < 0x20 then none else stringBody fuel (c :: read) rest
    | [] => none

/-- A string, from what follows its opening quote. -/
def string? (cs : List Char) : Option (String × List Char) :=
  (stringBody (cs.length + 1) [] cs).map fun (read, rest) ↦ (String.ofList read.reverse, rest)

/-- The digits of a number: one zero, or digits that do not start with one. -/
def integerDigits? (cs : List Char) : Option (List Char × List Char) :=
  match cs.span isAsciiDigit with
  | ([], _) => none
  | ('0' :: _ :: _, _) => none
  | (digits, rest) => some (digits, rest)

/-- A fraction and an exponent, as far as there are any; whether there was one. -/
def fractionAndExponent? (cs : List Char) : Option (Bool × List Char) := do
  let (fraction, rest) ← match cs with
    | '.' :: rest =>
      match rest.span isAsciiDigit with
      | ([], _) => none
      | (_, rest) => some (true, rest)
    | _ => some (false, cs)
  match rest with
  | e :: rest' =>
    if e = 'e' ∨ e = 'E' then
      let digits := match rest' with
        | '+' :: rest => rest
        | '-' :: rest => rest
        | _ => rest'
      match digits.span isAsciiDigit with
      | ([], _) => none
      | (_, rest) => some (true, rest)
    else some (fraction, rest)
  | [] => some (fraction, [])

def number? (cs : List Char) : Option (Json × List Char) := do
  let (negative, cs) := match cs with
    | '-' :: rest => (true, rest)
    | _ => (false, cs)
  let (digits, rest) ← integerDigits? cs
  let (fractional, rest) ← fractionAndExponent? rest
  let n := numeralValue 10 digits
  let value : Json :=
    if fractional ∨ (negative ∧ n = 0) ∨ greatest64 < n then .real
    else .integer (if negative then -(n : Int) else n)
  some (value, rest)

def word? (cs : List Char) : Option (Json × List Char) :=
  match cs with
  | 'n' :: 'u' :: 'l' :: 'l' :: rest => some (.null, rest)
  | 't' :: 'r' :: 'u' :: 'e' :: rest => some (.bool true, rest)
  | 'f' :: 'a' :: 'l' :: 's' :: 'e' :: rest => some (.bool false, rest)
  | _ => none

/-- Arrays and objects may stand one within another so deep. -/
def deepest : Nat := 127

mutual

/-- A value, and what follows it unless the text broke off. -/
def value : Nat → Nat → List Char → Json × Option (List Char)
  | 0, _, _ => (.broken, none)
  | fuel + 1, depth, cs =>
    match skipBlanks cs with
    | '\x22' :: rest =>
      match string? rest with
      | some (s, rest) => (.string s, some rest)
      | none => (.broken, none)
    | '[' :: rest =>
      if depth = 0 then (.broken, none)
      else
        match skipBlanks rest with
        | ']' :: rest => (.array [], some rest)
        | rest =>
          let (items, rest) := itemsFrom fuel (depth - 1) rest
          (.array items, rest)
    | '\x7b' :: rest =>
      if depth = 0 then (.broken, none)
      else
        match skipBlanks rest with
        | '\x7d' :: rest => (.object [], some rest)
        | rest =>
          let (entries, rest) := entriesFrom fuel (depth - 1) rest
          (.object entries, rest)
    | c :: rest =>
      if isAsciiDigit c ∨ c = '-' then
        match number? (c :: rest) with
        | some (n, rest) => (n, some rest)
        | none => (.broken, none)
      else
        match word? (c :: rest) with
        | some (w, rest) => (w, some rest)
        | none => (.broken, none)
    | [] => (.broken, none)

/-- Items separated by commas, up to the closing bracket. -/
def itemsFrom : Nat → Nat → List Char → List Json × Option (List Char)
  | 0, _, _ => ([.broken], none)
  | fuel + 1, depth, cs =>
    match value fuel depth cs with
    | (item, none) => ([item], none)
    | (item, some rest) =>
      match skipBlanks rest with
      | ',' :: rest =>
        let (items, rest) := itemsFrom fuel depth rest
        (item :: items, rest)
      | ']' :: rest => ([item], some rest)
      | _ => ([item, .broken], none)

/-- Entries separated by commas, up to the closing brace. A break where a key should stand has the
empty key. -/
def entriesFrom : Nat → Nat → List Char → List (String × Json) × Option (List Char)
  | 0, _, _ => ([("", .broken)], none)
  | fuel + 1, depth, cs =>
    match skipBlanks cs with
    | '\x22' :: rest =>
      match string? rest with
      | none => ([("", .broken)], none)
      | some (key, rest) =>
        match skipBlanks rest with
        | ':' :: rest =>
          match value fuel depth rest with
          | (v, none) => ([(key, v)], none)
          | (v, some rest) =>
            match skipBlanks rest with
            | ',' :: rest =>
              let (entries, rest) := entriesFrom fuel depth rest
              ((key, v) :: entries, rest)
            | '\x7d' :: rest => ([(key, v)], some rest)
            | _ => ([(key, v), ("", .broken)], none)
        | _ => ([(key, .broken)], none)
    | _ => ([("", .broken)], none)

end

/-- The value a text starts with, and whether nothing but blanks follows it. -/
def read (text : String) : Json × Bool :=
  let cs := text.toList
  match value (3 * cs.length + 3) deepest cs with
  | (v, some rest) => (v, (skipBlanks rest).isEmpty)
  | (v, none) => (v, true)

/-- The value of a text that is JSON throughout. -/
def parse? (text : String) : Option Json :=
  match read text with
  | (v, true) => if v.isBroken then none else some v
  | (_, false) => none

end SyntaxHighlight.Json
