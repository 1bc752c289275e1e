import SyntaxHighlight.Json.Printer
import SyntaxHighlight.Tree.Html
import SyntaxHighlight.Tree.Treeviz

/-! The formats that trees are written in, by name. -/
namespace SyntaxHighlight

namespace Tree

mutual

def toJson : Tree → Json
  | .text s => .string s
  | .scope name children =>
    .object ((name.map fun n ↦ ("scope", Json.string n)).toList ++
      [("children", .array (toJsonAll children))])

def toJsonAll : List Tree → List Json
  | [] => []
  | t :: ts => toJson t :: toJsonAll ts

end

end Tree

structure Formatter where
  name : String
  description : String
  render : Tree → String

namespace Formatter

def html (classPrefix : String) : Formatter :=
  ⟨"html", "HTML with <span> scopes", Html.render classPrefix⟩

def treeviz : Formatter := ⟨"treeviz", "One line per node, indented by nesting", Treeviz.render⟩

def json : Formatter := ⟨"json", "Token tree as JSON", fun t ↦ t.toJson.pretty⟩

end Formatter

inductive FormatError where
  | notFound (name : String)
deriving DecidableEq, Repr

def FormatError.message : FormatError → String
  | .notFound name => "Format '" ++ name ++ "' not found"

/-- Formatters, each name once, in the order of their names. -/
structure Formats where
  formatters : List Formatter

namespace Formats

variable (f : Formats)

/-- Adds a formatter in place of the one of its name, if there is one. -/
def register (formatter : Formatter) : Formats :=
  let others := f.formatters.filter (·.name ≠ formatter.name)
  ⟨others.takeWhile (·.name < formatter.name) ++ formatter ::
    others.dropWhile (·.name < formatter.name)⟩

def get? (name : String) : Option Formatter := f.formatters.find? (·.name = name)

def names : List String := f.formatters.map Formatter.name

def render (name : String) (t : Tree) : Except FormatError String :=
  match f.get? name with
  | some formatter => .ok (formatter.render t)
  | none => .error (.notFound name)

def standard (classPrefix : String) : Formats :=
  (((⟨[]⟩ : Formats).register (.html classPrefix)).register .treeviz).register .json

end Formats

end SyntaxHighlight
