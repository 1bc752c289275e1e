import SyntaxHighlight.Unicode.CaseRuns
import SyntaxHighlight.Unicode.Properties

/-!
Case folding and lowercasing. Two characters are equal up to case when their foldings are equal;
the folding of one character may be up to three characters long.
-/
namespace SyntaxHighlight.Unicode

/-- The image of a code point under a mapping given by runs; unmapped ones stay. -/
def applyRuns (runs : Array CaseRun) (code : Nat) : Nat :=
  match floorBy runs CaseRun.first code with
  | some run => (run.mapped? code).getD code
  | none => code

/-- The folding of a character to one character; a character that folds to several stays. -/
def simpleFold (c : Char) : Char :=
  if isAscii c then
    if isAsciiUpper c then Char.ofNat (c.toNat + 32) else c
  else Char.ofNat (applyRuns foldRuns c.toNat)

/-- The folding of a character that folds to several, if it does. -/
def expandingFold? (c : Char) : Option (List Char) :=
  if isAscii c then none
  else
    match floorEntry expandingFolds c.toNat with
    | some (code, image) => if code = c.toNat then some (image.map Char.ofNat) else none
    | none => none

def fold (c : Char) : List Char := (expandingFold? c).getD [simpleFold c]

def equalUpToCase (a b : Char) : Bool :=
  a == b ||
    match expandingFold? a, expandingFold? b with
    | none, none => simpleFold a == simpleFold b
    | some image, some image' => image == image'
    | _, _ => false

/-- The characters that fold to the given several. -/
def expandingSources (image : List Char) : List Char :=
  let codes := image.map Char.toNat
  expandingFolds.toList.filterMap fun (code, folded) ↦
    if folded = codes then some (Char.ofNat code) else none

/-- The characters beyond ASCII that equal a letter of ASCII up to case, given in lowercase: the
sign for kelvins and the long s. -/
def letterVariants (lower : Char) : List Char :=
  if lower = 'k' then ['\u212a'] else if lower = 's' then ['\u017f'] else []

/-- The other single characters that equal `c` up to case. -/
def caseVariants (c : Char) : List Char :=
  if isAsciiLower c then Char.ofNat (c.toNat - 32) :: letterVariants c
  else if isAsciiUpper c then simpleFold c :: letterVariants (simpleFold c)
  else if isAscii c then []
  else
    match expandingFold? c with
    | some image => (expandingSources image).filter (· ≠ c)
    | none =>
      let folded := simpleFold c
      let sources := foldRuns.toList.filterMap fun run ↦ run.preimage? folded.toNat
      ((folded :: sources.map Char.ofNat).filter (· ≠ c)).eraseDups

/-- Capital sigma is final when the nearest character before it that is not ignorable is cased
and the nearest one after it is not. -/
def isFinalSigma (before after : List Char) : Bool :=
  let cased (text : List Char) : Bool :=
    match text.dropWhile isCaseIgnorable with
    | c :: _ => isCased c
    | [] => false
  cased before && !cased after

/-- Lowercase with the text before, nearest first, in hand. -/
def lowercaseAfter (before : List Char) : List Char → List Char
  | [] => []
  | c :: after =>
    let image : List Char :=
      if isAscii c then [if isAsciiUpper c then Char.ofNat (c.toNat + 32) else c]
      else if c == '\u03a3' then [if isFinalSigma before after then '\u03c2' else '\u03c3']
      else if c == '\u0130' then ['i', '\u0307']
      else [Char.ofNat (applyRuns lowercaseRuns c.toNat)]
    image ++ lowercaseAfter (c :: before) after

def lowercase (text : String) : String := String.ofList (lowercaseAfter [] text.toList)

end SyntaxHighlight.Unicode
