import SyntaxHighlight.Config.Value
import SyntaxHighlight.Text.Fields

/-! Numbers, truth values and dates in TOML. Each is a run of characters that is read as a whole. -/
namespace SyntaxHighlight.Toml

open Unicode

/-- The digits of a number. Single underscores may stand between them. -/
def digits? (p : Char → Bool) (cs : List Char) : Option (List Char) :=
  let groups := Text.fields '_' cs
  if groups.all fun group ↦ !group.isEmpty && group.all p then some groups.flatten else none

/-- Digits that do not start with a needless zero. -/
def wholeDigits? (cs : List Char) : Option (List Char) :=
  (digits? isAsciiDigit cs).filter fun digits ↦ digits.head? ≠ some '0' || cs.length = 1

def signed (cs : List Char) : Bool × List Char :=
  match cs with
  | '-' :: rest => (true, rest)
  | '+' :: rest => (false, rest)
  | _ => (false, cs)

/-- An integer of 64 bits, in base ten, sixteen, eight or two. -/
def integer? (cs : List Char) : Option Int := do
  let n : Int ← match cs with
    | '0' :: 'x' :: rest => (digits? isHexDigit rest).map fun ds ↦ numeralValue 16 ds
    | '0' :: 'o' :: rest =>
      (digits? (fun c ↦ '0' ≤ c && c ≤ '7') rest).map fun ds ↦ numeralValue 8 ds
    | '0' :: 'b' :: rest =>
      (digits? (fun c ↦ c == '0' || c == '1') rest).map fun ds ↦ numeralValue 2 ds
    | _ =>
      let (negative, rest) := signed cs
      (wholeDigits? rest).map fun ds ↦
        if negative then -(numeralValue 10 ds : Int) else numeralValue 10 ds
  if -0x8000000000000000 ≤ n ∧ n < 0x8000000000000000 then some n else none

/-- A number from its digits. Numbers beyond the range of double precision do not exist, and those
below it are zero. -/
def decimal? (negative : Bool) (digits : List Char) (exponent : Int) : Option Decimal :=
  let n := numeralValue 10 digits
  let magnitude := (Nat.toDigits 10 n).length + exponent
  if n = 0 ∨ magnitude < -330 then some (.finite negative 0 0)
  else if 309 < magnitude then none
  else some (.finite negative n exponent)

/-- A number with a fraction, with an exponent or with both. -/
def real? (cs : List Char) : Option Decimal := do
  let (negative, body) := signed cs
  if body = ['i', 'n', 'f'] then return .infinite negative
  if body = ['n', 'a', 'n'] then return .undefined
  let (mantissa, exponent) := body.span fun c ↦ c != 'e' && c != 'E'
  let (whole, fraction) := mantissa.span (· != '.')
  if exponent.isEmpty && fraction.isEmpty then none
  let whole ← wholeDigits? whole
  let fraction ← if fraction.isEmpty then some [] else digits? isAsciiDigit fraction.tail
  let e : Int ←
    if exponent.isEmpty then some 0
    else
      let (negative, rest) := signed exponent.tail
      (digits? isAsciiDigit rest).map fun ds ↦
        if negative then -(numeralValue 10 ds : Int) else numeralValue 10 ds
  decimal? negative (whole ++ fraction) (e - fraction.length)

/-- A number of so many digits, at most `greatest`. -/
def fixed? (length greatest : Nat) (cs : List Char) : Option Nat :=
  let n := numeralValue 10 cs
  if cs.length = length ∧ cs.all isAsciiDigit ∧ n ≤ greatest then some n else none

def isLeapYear (year : Nat) : Bool := year % 4 == 0 && (year % 100 != 0 || year % 400 == 0)

def daysIn (year month : Nat) : Nat :=
  if month = 2 then (if isLeapYear year then 29 else 28)
  else if [4, 6, 9, 11].contains month then 30
  else 31

def isDate (cs : List Char) : Bool :=
  match Text.fields '-' cs with
  | [year, month, day] =>
    match fixed? 4 9999 year, fixed? 2 12 month, fixed? 2 31 day with
    | some year, some month, some day => 1 ≤ month && 1 ≤ day && day ≤ daysIn year month
    | _, _, _ => false
  | _ => false

/-- A time of day. Of a fraction, nine digits count and no zeros at its end. -/
def time? (cs : List Char) : Option (List Char) :=
  let (clock, fraction) := cs.span (· != '.')
  match Text.fields ':' clock with
  | [hour, minute, second] => do
    let _ ← fixed? 2 23 hour
    let _ ← fixed? 2 59 minute
    let _ ← fixed? 2 60 second
    if fraction.isEmpty then return clock
    if fraction.tail.isEmpty || !fraction.tail.all isAsciiDigit then none
    let counted := ((fraction.tail.take 9).reverse.dropWhile (· == '0')).reverse
    pure (if counted.isEmpty then clock else clock ++ '.' :: counted)
  | _ => none

/-- The distance of a time from that at Greenwich. -/
def zone? (cs : List Char) : Option (List Char) :=
  match cs with
  | sign :: rest =>
    if sign = 'Z' ∨ sign = 'z' then (if rest.isEmpty then some ['Z'] else none)
    else
      match Text.fields ':' rest with
      | [hour, minute] => do
        let hours ← fixed? 2 23 hour
        let minutes ← fixed? 2 59 minute
        let sign := if hours = 0 ∧ minutes = 0 then '+' else sign
        pure (sign :: hour ++ ':' :: minute)
      | _ => none
  | [] => some []

/-- A date, a time of day or both, as it is usually written. -/
def moment? (cs : List Char) : Option (List Char) :=
  let date := cs.take 10
  if isDate date then
    match cs.drop 10 with
    | [] => some date
    | t :: rest =>
      if t = 'T' ∨ t = 't' ∨ t = ' ' then do
        let (clock, zone) := rest.span fun c ↦ isAsciiDigit c || c == ':' || c == '.'
        let clock ← time? clock
        let zone ← zone? zone
        pure (date ++ 'T' :: (clock ++ zone))
      else none
  else time? cs

/-- What a run of characters stands for. A date is a text. -/
def word? (cs : List Char) : Option ConfigValue :=
  if cs = "true".toList then some (.bool true)
  else if cs = "false".toList then some (.bool false)
  else
    match moment? cs, integer? cs, real? cs with
    | some text, _, _ => some (.text (String.ofList text))
    | none, some n, _ => some (.integer n)
    | none, none, some d => some (.real d)
    | none, none, none => none

def isWordChar (c : Char) : Bool :=
  isAsciiLetter c || isAsciiDigit c || ['_', '-', '+', '.', ':'].contains c

/-- Whether a blank is followed by a time of day. -/
def timeFollows (cs : List Char) : Bool :=
  match cs with
  | ' ' :: a :: b :: ':' :: _ => isAsciiDigit a && isAsciiDigit b
  | _ => false

/-- A value that is a run of characters. One blank may stand between a date and a time. -/
def bareValue? (cs : List Char) : Option (ConfigValue × List Char) :=
  let (run, rest) := cs.span isWordChar
  let (run, rest) :=
    if isDate run && timeFollows rest then
      let (time, rest) := rest.tail.span isWordChar
      (run ++ ' ' :: time, rest)
    else (run, rest)
  (word? run).map fun v ↦ (v, rest)

end SyntaxHighlight.Toml
