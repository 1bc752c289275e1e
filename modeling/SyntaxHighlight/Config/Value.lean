import SyntaxHighlight.Text.Numeral
import SyntaxHighlight.Unicode.Case

/-!
Values of a configuration. A reader that wants a value of one kind takes one of another kind for it
where the meaning is plain: the word `off` for a truth value, or digits for a number.
-/
namespace SyntaxHighlight

/-- A number as it is written in decimal notation. -/
inductive Decimal where
  /-- The number of the digits times a power of ten. -/
  | finite (negative : Bool) (digits : Nat) (exponent : Int)
  | infinite (negative : Bool)
  | undefined
deriving DecidableEq, Repr, Inhabited

namespace Decimal

def isZero : Decimal → Bool
  | finite _ digits _ => digits == 0
  | _ => false

/-- The nearest natural number of 64 bits. A half is rounded up. -/
def nearest : Decimal → Nat
  | finite true _ _ => 0
  | finite false digits exponent =>
    let scale := Nat.pow 10 (-exponent).toNat
    min greatest64 ((2 * digits * Nat.pow 10 exponent.toNat + scale) / (2 * scale))
  | infinite negative => if negative then 0 else greatest64
  | undefined => 0

/-- The digits before the point and those after it, without zeros at the end. -/
def point (digits : Nat) (exponent : Int) : List Char × List Char :=
  let cs := Nat.toDigits 10 (digits * Nat.pow 10 exponent.toNat)
  let places := (-exponent).toNat
  let cs := List.replicate (places + 1 - cs.length) '0' ++ cs
  let fraction := (cs.drop (cs.length - places)).reverse.dropWhile (· == '0')
  (cs.take (cs.length - places), fraction.reverse)

def toText : Decimal → String
  | finite negative digits exponent =>
    let (whole, fraction) := point digits exponent
    let sign := if negative then ['-'] else []
    String.ofList (sign ++ whole ++ if fraction.isEmpty then [] else '.' :: fraction)
  | infinite negative => if negative then "-inf" else "inf"
  | undefined => "NaN"

end Decimal

inductive ConfigValue where
  | nothing
  | bool (b : Bool)
  | integer (n : Int)
  | real (d : Decimal)
  | text (s : String)
  | list (items : List ConfigValue)
  | table (entries : List (String × ConfigValue))
deriving Inhabited, Repr

inductive ConfigError where
  | missingFile
  | invalidFile
  /-- A key does not say where its value belongs. -/
  | invalidKey (key : String)
  /-- A value cannot be taken for one of the kind that is wanted. -/
  | wrongKind
  /-- Something other than a table or a list stands where one is wanted, or too little is in it. -/
  | wrongShape
deriving DecidableEq, Repr

def ConfigError.message : ConfigError → String
  | .missingFile => "configuration file not found"
  | .invalidFile => "configuration file is not valid"
  | .invalidKey key => "invalid key '" ++ key ++ "'"
  | .wrongKind => "a value is of the wrong kind"
  | .wrongShape => "a table or a list is missing or not complete"

namespace ConfigValue

def asBool : ConfigValue → Except ConfigError Bool
  | bool b => pure b
  | integer n => pure (n != 0)
  | real d => pure !d.isZero
  | text s =>
    let word := Unicode.lowercase s
    if ["1", "true", "on", "yes"].contains word then pure true
    else if ["0", "false", "off", "no"].contains word then pure false
    else throw .wrongKind
  | _ => throw .wrongKind

/-- A natural number of 64 bits. -/
def asNatural : ConfigValue → Except ConfigError Nat
  | bool b => pure b.toNat
  | integer n => if 0 ≤ n then pure n.toNat else throw .wrongKind
  | real d => pure d.nearest
  | text s =>
    let word := Unicode.lowercase s
    if ["true", "on", "yes"].contains word then pure 1
    else if ["false", "off", "no"].contains word then pure 0
    else
      match natural? greatest64 s.toList with
      | some n => pure n
      | none => throw .wrongKind
  | _ => throw .wrongKind

def asText : ConfigValue → Except ConfigError String
  | text s => pure s
  | bool b => pure (if b then "true" else "false")
  | integer n => pure (toString n)
  | real d => pure d.toText
  | _ => throw .wrongKind

def asTexts : ConfigValue → Except ConfigError (List String)
  | list items => items.mapM asText
  | _ => throw .wrongShape

end ConfigValue

end SyntaxHighlight
