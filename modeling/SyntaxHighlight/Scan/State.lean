import SyntaxHighlight.Scan.Basic

/-!
The state of a scan and how text enters the tree. Text that has been read waits in a buffer until
it is known to which mode it belongs; then it is searched for keywords, or handed to the language
that the mode embeds.
-/
namespace SyntaxHighlight

structure ScanSetting where
  loaded : LoadedGrammar
  options : ScanOptions
  languages : Languages
  text : Text

namespace ScanSetting

variable (e : ScanSetting)

def grammar : CompiledGrammar := e.loaded.grammar

end ScanSetting

structure ScanState where
  /-- The open modes, the innermost first. -/
  stack : List Frame
  tree : TreeBuilder := {}
  /-- Text that has been read and is not in the tree yet. -/
  buffer : String := ""
  relevance : Nat := 0
  /-- How often each keyword has been hit. -/
  hits : Dictionary Nat := .empty
  /-- Where the last text of each embedded language stopped. -/
  continuations : Dictionary Continuation := .empty
  /-- The first of the rules in play. -/
  firstRule : Nat := 0
  /-- The last rule that matched, and where. -/
  lastMatch : Option (Rule.Kind × Nat) := none
  iterations : Nat := 0
  /-- What comes before this position has been read. -/
  position : Nat := 0
deriving Inhabited

namespace ScanState

variable (e : ScanSetting) (s : ScanState)

def topId : Nat :=
  match s.stack with
  | [] => CompiledGrammar.rootId
  | frame :: _ => frame.mode

def topMode : CompiledMode := e.grammar.mode s.topId

def keep (text : String) : ScanState := { s with buffer := s.buffer ++ text }

def addText (text : String) : ScanState := { s with tree := s.tree.addText text }

def addScoped (scope text : String) : ScanState :=
  { s with tree := s.tree.addScoped (e.grammar.aliasScope scope) text }

/-- Counts a hit of a word. Only so many hits of one word add to the relevance. -/
def hit (word : String) (keyword : Keyword) : ScanState :=
  let key := if e.grammar.caseInsensitive then Unicode.lowercase word else word
  let hits := (s.hits.get? key).getD 0 + 1
  { s with
    hits := s.hits.insert key hits
    relevance :=
      if hits ≤ e.options.maxKeywordHits then s.relevance + keyword.relevance else s.relevance }

/-- Adds a keyword after the plain text before it. A scope that starts with an underscore only
counts, and the word is left to the plain text that follows. -/
def addKeyword (plain word : String) (keyword : Keyword) : ScanState × String :=
  -- The hit is counted whether the word gets a scope of its own or not.
  let s := (s.addText plain).hit e word keyword
  if keyword.scope.startsWith "_" then (s, word) else (s.addScoped e keyword.scope word, "")

/-- Adds the words found in a text, and the text between them. `plain` is what is still to be added
of the text before the position `last`. -/
def addWords (table : KeywordTable) (text : Text) (last : Nat) (plain : String) :
    List Span → ScanState → ScanState
  | [], s => s.addText (plain ++ text.rest last)
  | (start, stop) :: spans, s =>
    let plain := plain ++ text.slice last start
    let word := text.slice start stop
    match table.lookup? word with
    | none => addWords table text stop (plain ++ word) spans s
    | some keyword =>
      let (s, plain) := s.addKeyword e plain word keyword
      addWords table text stop plain spans s

/-- Adds text in which the keywords of the innermost mode are marked. -/
def addKeywords (text : String) : ScanState :=
  let mode := s.topMode e
  match mode.keywords, mode.keywordPattern with
  | some table, some pattern =>
    let text := Text.ofString text
    addWords e table text 0 "" (pattern.findAll text) s
  | _, _ => s.addText text

/-- Adds the tree of an embedded text. It counts if the mode that embeds it does. -/
def embed (result : HighlightResult) (weight : Nat) : ScanState :=
  { s with
    relevance := if 0 < weight then s.relevance + result.relevance else s.relevance
    tree := s.tree.embed result.tree result.language }

/-- Adds a text in another language. A language that is not known is plain text. -/
def addEmbedded (sub : SubLanguage) (text : String) (weight : Nat) :
    Except ScanError ScanState :=
  if text.isEmpty then pure s
  else
    match sub with
    | .fixed name =>
      if e.languages.isKnown name then
        match e.languages.highlight name text (s.continuations.get? name) with
        | .error cause => throw (.embedded cause)
        | .ok result =>
          let continuations := match result.continuation with
            | some next => s.continuations.insert name next
            -- A text that fell back has stopped nowhere, so the next goes on from the one before.
            | none => s.continuations
          pure ({ s with continuations }.embed result weight)
      else pure (s.addText text)
    | .detect names =>
      match e.languages.detect text names with
      | .error cause => throw (.embedded cause)
      | .ok result => pure (s.embed result weight)

def flush : Except ScanError ScanState :=
  let mode := s.topMode e
  let text := s.buffer
  let s := { s with buffer := "" }
  match mode.subLanguage with
  | some sub => s.addEmbedded e sub text mode.relevance
  | none => pure (s.addKeywords e text)

/-- Adds the groups of a match one after another, each in its scope. -/
def addParts (groups : List (Option Span)) : List (Nat × Option String) → ScanState → ScanState
  | [], s => s
  | (group, scope) :: parts, s =>
    match groups[group]?.join with
    | none => addParts groups parts s
    | some (start, stop) =>
      let text := e.text.slice start stop
      addParts groups parts
        (match scope with
          | some scope => s.addScoped e scope text
          | none => s.addKeywords e text)

end ScanState

end SyntaxHighlight
