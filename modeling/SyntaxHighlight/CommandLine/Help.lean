import SyntaxHighlight.CommandLine.Arguments

/-! What the program offers, and what it tells about that. -/
namespace SyntaxHighlight.CommandLine

inductive Topic where
  | program
  | highlight
  | detect
  | listFormats
  | help
deriving DecidableEq, Repr

def programName : String := "hilite"

def version : String := programName ++ " 0.1.0\n"

def grammarOption : OptionSpec where
  name := "grammar"
  letter := some 'g'
  takesValue := true
  repeats := true
  required := true
  about := "Grammar definition file (.json, .yaml); may be repeated"

def languageOption : OptionSpec where
  name := "language"
  letter := some 'l'
  takesValue := true
  about := "Language to use; auto-detected when omitted"

def defaultFormat : String := "html"

def formatOption : OptionSpec where
  name := "format"
  letter := some 'f'
  takesValue := true
  about := "Output format (e.g., 'html', 'treeviz', 'json') [default: " ++ defaultFormat ++ "]"

def ignoreIllegalsOption : OptionSpec where
  name := "ignore-illegals"
  about := "Keep going when a grammar marks text as illegal"

def jsonOption : OptionSpec where
  name := "json"
  about := "Print the full highlight result as JSON"

def configOption : OptionSpec where
  name := "config"
  letter := some 'c'
  takesValue := true
  about := "TOML file layered over the built-in settings"

def versionOption : OptionSpec where
  name := "version"
  letter := some 'V'
  about := "Print version"

namespace Topic

def name : Topic → String
  | program => programName
  | highlight => "highlight"
  | detect => "detect"
  | listFormats => "list-formats"
  | help => "help"

def commands : List Topic := [highlight, detect, listFormats, help]

def ofName? (name : String) : Option Topic := commands.find? (·.name = name)

def about : Topic → String
  | program => "Syntax highlighting driven by regex grammars"
  | highlight => "Highlight a file"
  | detect => "Report the best and second best language for a file"
  | listFormats => "List available output formats"
  | help => "Print this message or the help of the given subcommand(s)"

def signature : Topic → Signature
  | highlight =>
    { options := [grammarOption, languageOption, formatOption, ignoreIllegalsOption, jsonOption,
        configOption]
      places := [⟨"path", "Path to the file to highlight"⟩] }
  | detect =>
    { options := [grammarOption, configOption]
      places := [⟨"path", "Path to the file to inspect"⟩] }
  | _ => {}

end Topic

/-! The text of help. -/

def OptionSpec.valued (option : OptionSpec) : String :=
  "--" ++ option.name ++ if option.takesValue then " <" ++ option.name ++ ">" else ""

def OptionSpec.row (option : OptionSpec) : String × String :=
  let letter := match option.letter with
    | some c => String.ofList ['-', c, ',', ' ']
    | none => "    "
  (letter ++ option.valued, option.about)

def PlaceSpec.row (place : PlaceSpec) : String × String := ("<" ++ place.name ++ ">", place.about)

/-- Rows of two columns, the second of them aligned. -/
def table (title : String) (rows : List (String × String)) : String :=
  let width := ((rows.map (·.1.length)).max?).getD 0
  let lines := rows.map fun (left, right) ↦
    "  " ++ left ++ String.ofList (List.replicate (width + 2 - left.length) ' ') ++ right ++ "\n"
  if rows.isEmpty then "" else "\n" ++ title ++ ":\n" ++ String.join lines

namespace Topic

def usage (t : Topic) : String :=
  match t with
  | program => programName ++ " <COMMAND>"
  | help => programName ++ " " ++ help.name ++ " [COMMAND]..."
  | _ =>
    let optional := if t.signature.options.all (·.required) then [] else ["[OPTIONS]"]
    let required := (t.signature.options.filter (·.required)).map OptionSpec.valued
    " ".intercalate ([programName, t.name] ++ optional ++ required ++
      t.signature.places.map fun place ↦ place.row.1)

/-- What follows the usage. -/
def details (t : Topic) : String :=
  match t with
  | program =>
    table "Commands" (commands.map fun command ↦ (command.name, command.about)) ++
      table "Options" [helpOption.row, versionOption.row]
  | help => table "Arguments" [("[COMMAND]...", "Print help for the subcommand(s)")]
  | _ =>
    table "Arguments" (t.signature.places.map PlaceSpec.row) ++
      table "Options" ((t.signature.options ++ [helpOption]).map OptionSpec.row)

def text (t : Topic) : String := t.about ++ "\n\nUsage: " ++ t.usage ++ "\n" ++ t.details

end Topic

end SyntaxHighlight.CommandLine
