import SyntaxHighlight.Grammar.Decode
import SyntaxHighlight.Grammar.Error
import SyntaxHighlight.Json.Reader
import SyntaxHighlight.Text.FileName
import SyntaxHighlight.Unicode.Case
import SyntaxHighlight.Yaml.Reader

/-! Grammars that are kept in files. -/
namespace SyntaxHighlight

/-- What is in the file at a path, or why it cannot be read. -/
abbrev Files := String → Except String String

def noSuchFile : String := "No such file or directory (os error 2)"

inductive GrammarFormat where
  | json
  | yaml
deriving DecidableEq, Repr

inductive LoadError where
  | unreadable (reason : String)
  | invalidJson (cause : DataError)
  | invalidYaml
  | unsupportedFormat (ending : String)
deriving DecidableEq, Repr

def LoadError.message : LoadError → String
  | .unreadable reason => "IO error: " ++ reason
  | .invalidJson .malformed => "Invalid JSON grammar: no grammar in JSON"
  | .invalidJson (.unknownMarker text) =>
    "Invalid JSON grammar: " ++ (GrammarError.invalidMarker text).message
  | .invalidYaml => "Invalid YAML grammar: no grammar in YAML"
  | .unsupportedFormat ending => "Unsupported grammar file format: '" ++ ending ++ "'"

def GrammarFormat.ofPath (path : String) : Except LoadError GrammarFormat :=
  match Unicode.lowercase (FileName.ending path) with
  | "json" => pure .json
  | "yaml" | "yml" => pure .yaml
  | ending => throw (.unsupportedFormat ending)

namespace Grammar

/-- A grammar in JSON. What follows it is looked at last. -/
def readJson (text : String) : Except LoadError Grammar :=
  let (value, isWhole) := Json.read text
  match decode (.ofJson value) with
  | .error cause => throw (.invalidJson cause)
  | .ok g => if isWhole then pure g else throw (.invalidJson .malformed)

def readYaml (text : String) : Except LoadError Grammar :=
  match Yaml.read text with
  | none => throw .invalidYaml
  | some data =>
    match decode data with
    | .error _ => throw .invalidYaml
    | .ok g => pure g

def read : GrammarFormat → String → Except LoadError Grammar
  | .json => readJson
  | .yaml => readYaml

/-- The grammar in a file. One that has no name is called what the file is called. -/
def load (files : Files) (path : String) : Except LoadError Grammar := do
  let format ← GrammarFormat.ofPath path
  let text ← (files path).mapError LoadError.unreadable
  let g ← read format text
  if g.name.isEmpty then pure { g with name := (FileName.stem? path).getD "" } else pure g

/-- The name that a grammar from a file is registered under. -/
def languageName (g : Grammar) : String := Unicode.lowercase g.name

end Grammar

end SyntaxHighlight
