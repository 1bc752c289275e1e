import SyntaxHighlight.Highlight.Ranking
import SyntaxHighlight.Highlight.Registry
import SyntaxHighlight.Highlight.Settings
import SyntaxHighlight.Scan.Run

/-!
Highlighting texts. A scan that stops at illegal text leaves the text as it is. Where it fails for
another reason, the text is left as it is in safe mode, and the caller gets an error otherwise.
-/
namespace SyntaxHighlight

/-- The best result for a text of unknown language, and the one next to it. -/
structure Detection where
  best : HighlightResult
  secondBest : Option HighlightResult
deriving Inhabited

structure Highlighter where
  registry : Registry
  settings : Settings

namespace Highlighter

def ofSettings (settings : Settings) : Highlighter :=
  ⟨{ safeMode := settings.safeMode, scoring := settings.scoring }, settings⟩

/-- So many bytes of text are shown on each side of illegal text. -/
def contextRadius : Nat := 100

/-- The text around a byte offset, widened to whole characters. -/
def contextAround (text : Text) (offset : Nat) : String :=
  text.slice (text.floorPosition (offset - contextRadius))
    (text.ceilPosition (min (offset + contextRadius) text.bytes))

variable (h : Highlighter)

/-- The text as it is, in a language. -/
def fallback (language code : String) : HighlightResult :=
  { HighlightResult.plaintext code with language := some language }

def scanned (language code : String) (output : ScanOutput) : HighlightResult :=
  { language := some language
    relevance := output.relevance
    value := Html.render h.settings.classPrefix output.tree
    code
    tree := output.tree
    continuation := some output.continuation }

/-- What becomes of a text whose scan has stopped early. -/
def settle (language code : String) (error : ScanError) : Except HighlightError HighlightResult :=
  match error with
  | .illegal message offset mode =>
    pure
      { fallback language code with
        illegal := true
        illegalBy := some ⟨message, offset, contextAround (.ofString code) offset, mode⟩ }
  | error =>
    if h.settings.safeMode then
      pure { fallback language code with errorRaised := some error.message }
    else
      match error with
      | .zeroWidth rule => throw (.zeroWidthMatch language rule)
      | .runaway iterations => throw (.runawayLoop language iterations)
      | .pattern cause => throw (.grammar language cause)
      | .embedded cause => throw cause
      | _ => throw .endlessEmbedding

def scanOptions (ignoreIllegals : Bool) : ScanOptions where
  ignoreIllegals
  safeMode := h.settings.safeMode
  maxIterations := h.settings.maxIterations
  maxKeywordHits := h.settings.maxKeywordHits

/-- A text in a language, with the languages that it may embed. -/
def highlightWith (languages : Languages) (language code : String) (ignoreIllegals : Bool)
    (continuation : Option Continuation) : Except HighlightError HighlightResult := do
  let loaded ← h.registry.load language
  match (ScanSetting.mk loaded (h.scanOptions ignoreIllegals) languages (.ofString code)).run
      continuation with
  | .ok output => pure (h.scanned language code output)
  | .error error => h.settle language code error

/-- The languages to try, in order: those given, or those set, or all. Names that are not known and
languages that stay out are dropped. -/
def candidates (subset : Option (List String)) : List String :=
  let names := match subset with
    | some names => names
    | none => if h.settings.languages.isEmpty then h.registry.names else h.settings.languages
  names.filter h.registry.autodetects

def standing (r : HighlightResult) : Standing := ⟨r.language, r.relevance⟩

/-- The results for a text of unknown language, best first. Plain text is always one of them. -/
def ranked (languages : Languages) (code : String) (subset : Option (List String)) :
    Except HighlightError (List HighlightResult) := do
  let results ← (h.candidates subset).mapM fun name ↦
    h.highlightWith languages name code h.settings.autodetectIgnoreIllegals none
  pure (Ranking.rank h.registry.supersetOf? standing (.plaintext code :: results))

def detectWith (languages : Languages) (code : String) (subset : Option (List String)) :
    Except HighlightError Detection := do
  match ← h.ranked languages code subset with
  | [] => pure ⟨.plaintext code, none⟩
  | best :: others => pure ⟨best, others.head?⟩

/-- The languages, embedded in each other at most so deep. -/
def languages : Nat → Languages
  | 0 =>
    { isKnown := h.registry.isKnown
      highlight := fun name code _ ↦
        if h.registry.isKnown name then h.settle name code .endlessEmbedding
        else throw (.unknownLanguage name)
      detect := fun code _ ↦
        if h.settings.safeMode then pure (.plaintext code) else throw .endlessEmbedding }
  | depth + 1 =>
    { isKnown := h.registry.isKnown
      highlight := fun name code continuation ↦
        h.highlightWith (languages depth) name code true continuation
      detect := fun code names ↦
        Detection.best <$>
          h.detectWith (languages depth) code (if names.isEmpty then none else some names) }

/-- Embedding that goes deeper than this has come back to a language with the same text. -/
def embeddingDepth (code : String) : Nat := (code.length + 1) * (h.registry.names.length + 2)

/-- The languages that a text may embed. -/
def languagesFor (code : String) : Languages := h.languages (h.embeddingDepth code)

def highlight (language code : String) (ignoreIllegals : Bool) :
    Except HighlightError HighlightResult :=
  h.highlightWith (h.languagesFor code) language code ignoreIllegals none

def detect (code : String) (subset : Option (List String)) : Except HighlightError Detection :=
  h.detectWith (h.languagesFor code) code subset

/-- Scans a text without a fallback, as a continuation of an earlier scan. -/
def scan (language code : String) (ignoreIllegals : Bool) (continuation : Option Continuation) :
    Except HighlightError (LoadedGrammar × Except ScanError ScanOutput) := do
  let loaded ← h.registry.load language
  pure (loaded, (ScanSetting.mk loaded (h.scanOptions ignoreIllegals) (h.languagesFor code)
    (.ofString code)).run continuation)

end Highlighter

end SyntaxHighlight
