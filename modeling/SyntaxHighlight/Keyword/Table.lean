import SyntaxHighlight.Keyword.Basic
import SyntaxHighlight.Text.Numeral
import SyntaxHighlight.Unicode.Case

/-! Tables that tell the scope and the weight of a word. -/
namespace SyntaxHighlight

open Unicode

structure KeywordScoring where
  /-- Words that are so common that they count nothing, in lowercase. -/
  common : List String
  /-- How many hits of one word count within a scan. -/
  maxHits : Nat
deriving DecidableEq, Repr

namespace KeywordScoring

def standardCommon : List String :=
  ["of", "and", "for", "in", "not", "or", "if", "then", "parent", "list", "value"]

def standardMaxHits : Nat := 7

def ofWords (common : List String) (maxHits : Nat) : KeywordScoring :=
  ⟨common.map lowercase, maxHits⟩

instance : Inhabited KeywordScoring := ⟨⟨standardCommon, standardMaxHits⟩⟩

/-- The weight of a word: the number given with it if that can be read, and otherwise one unless
the word is common. -/
def score (s : KeywordScoring) (word : String) (given : Option String) : Nat :=
  match given.bind fun text ↦ natural? greatest32 text.toList with
  | some n => n
  | none => if s.common.contains (lowercase word) then 0 else 1

end KeywordScoring

structure Keyword where
  scope : String
  relevance : Nat
deriving DecidableEq, Repr, Inhabited

structure KeywordTable where
  /-- Each word once, the latest first. -/
  words : List (String × Keyword)
  caseInsensitive : Bool
deriving DecidableEq, Repr, Inhabited

namespace KeywordTable

/-- A word and what is given with it, which a bar sets apart. -/
def parseEntry (entry : String) : String × Option String :=
  match Text.fields '\x7c' entry.toList with
  | word :: rest => (String.ofList word, rest.head?.map String.ofList)
  | [] => ("", none)

variable (scoring : KeywordScoring) (table : KeywordTable)

def folded (s : String) : String := if table.caseInsensitive then lowercase s else s

/-- Enters a word, in place of an earlier entry. An empty word is not entered. -/
def enter (scope entry : String) : KeywordTable :=
  -- The whole entry is folded, what is given with the word included.
  let (word, given) := parseEntry (table.folded entry)
  if word.isEmpty then table
  else
    { table with
      words := (word, ⟨scope, scoring.score word given⟩) ::
        table.words.filter (·.1 ≠ word) }

def ofKeywords (keywords : Keywords) (caseInsensitive : Bool) : KeywordTable :=
  keywords.words.foldl (fun table (scope, entry) ↦ table.enter scoring scope entry)
    ⟨[], caseInsensitive⟩

def lookup? (word : String) : Option Keyword := table.words.lookup (table.folded word)

def size : Nat := table.words.length

end KeywordTable

end SyntaxHighlight
