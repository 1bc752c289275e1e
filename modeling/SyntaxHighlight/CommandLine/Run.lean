import SyntaxHighlight.CommandLine.Command
import SyntaxHighlight.Config.Settings
import SyntaxHighlight.Highlight.Highlighter
import SyntaxHighlight.Highlight.Report
import SyntaxHighlight.Tree.Format

/-! What commands do. A command ends at the first thing that goes wrong, with a message on it. -/
namespace SyntaxHighlight

structure Outcome where
  exitCode : Nat
  output : String
  complaint : String
deriving DecidableEq, Repr

namespace Outcome

def success (output : String) : Outcome := ⟨0, output, ""⟩

def failure (complaint : String) : Outcome := ⟨1, "", complaint ++ "\n"⟩

def misuse (error : CommandLine.UsageError) : Outcome := ⟨2, "", "error: " ++ error.message ++ "\n"⟩

end Outcome

namespace Sources

/-- The files that may be looked into. A configuration file may be named without its ending. -/
def paths (s : Sources) : List String :=
  s.path :: s.grammars ++ s.config.toList.flatMap fun path ↦ [path, path ++ ConfigFile.ending]

end Sources

namespace Command

variable (files : Files)

def loadSettings (config : Option String) : Except String Settings :=
  let layers := config.toList.map fun path ↦ ConfigFile.find files path true
  (Settings.load layers []).mapError fun e ↦ "Error loading configuration: " ++ e.message

def addGrammar (h : Highlighter) (path : String) : Except String Highlighter := do
  let g ← (Grammar.load files path).mapError fun e ↦
    "Error loading grammar " ++ path ++ ": " ++ e.message
  let registry ← (h.registry.register g.languageName (.ok g)).mapError fun e ↦
    "Error registering grammar " ++ path ++ ": " ++ e.message
  pure { h with registry }

def openSources (s : Sources) : Except String (Highlighter × String) := do
  let settings ← loadSettings files s.config
  let h ← s.grammars.foldlM (addGrammar files) (Highlighter.ofSettings settings)
  let code ← (files s.path).mapError fun reason ↦ "Error reading file: " ++ reason
  pure (h, code)

def findResult (h : Highlighter) (code : String) (request : HighlightRequest) :
    Except HighlightError Detection :=
  match request.language with
  | some language => (fun r ↦ ⟨r, none⟩) <$> h.highlight language code request.ignoreIllegals
  | none => h.detect code none

def runHighlight (request : HighlightRequest) : Except String String := do
  let (h, code) ← openSources files request.sources
  let found ← (findResult h code request).mapError fun e ↦ "Highlight error: " ++ e.message
  if request.json then
    pure ((HighlightResult.toJson found.best found.secondBest).pretty ++ "\n")
  else
    ((Formats.standard h.settings.classPrefix).render request.format found.best.tree).mapError
      fun e ↦ "Format error: " ++ e.message

def describe (r : HighlightResult) : String :=
  r.language.getD "plain text" ++ " (relevance " ++ toString r.relevance ++ ")"

def runDetect (s : Sources) : Except String String := do
  let (h, code) ← openSources files s
  let found ← (h.detect code none).mapError fun e ↦ "Detection error: " ++ e.message
  let second := match found.secondBest with
    | some r => "second: " ++ describe r ++ "\n"
    | none => ""
  pure ("best:   " ++ describe found.best ++ "\n" ++ second)

def formatList : String :=
  (Formats.standard Html.defaultClassPrefix).formatters.foldl
    (fun out f ↦ out ++ "  " ++ f.name ++ "\n    " ++ f.description ++ "\n")
    "Available formats:\n\n"

def output : Command → Except String String
  | .highlight request => runHighlight files request
  | .detect s => runDetect files s
  | .listFormats => pure formatList
  | .help topic => pure topic.text
  | .version => pure CommandLine.version

def run (arguments : List String) : Outcome :=
  match parse arguments with
  | .error error => .misuse error
  | .ok command =>
    match command.output files with
    | .ok out => .success out
    | .error complaint => .failure complaint

def paths : Command → List String
  | .highlight request => request.sources.paths
  | .detect s => s.paths
  | _ => []

end Command

end SyntaxHighlight
