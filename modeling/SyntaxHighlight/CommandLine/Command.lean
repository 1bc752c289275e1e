import SyntaxHighlight.CommandLine.Help

/-! Commands out of the arguments on a command line. -/
namespace SyntaxHighlight

open CommandLine

structure Sources where
  path : String
  grammars : List String
  config : Option String
deriving DecidableEq, Repr

structure HighlightRequest where
  sources : Sources
  language : Option String
  format : String
  ignoreIllegals : Bool
  json : Bool
deriving DecidableEq, Repr

inductive Command where
  | highlight (request : HighlightRequest)
  | detect (sources : Sources)
  | listFormats
  | help (topic : Topic)
  | version
deriving DecidableEq, Repr

def Sources.ofGiven (g : Given) : Sources where
  path := (g.plain.head?).getD ""
  grammars := g.values grammarOption.name
  config := g.value? configOption.name

def HighlightRequest.ofGiven (g : Given) : HighlightRequest where
  sources := .ofGiven g
  language := g.value? languageOption.name
  format := (g.value? formatOption.name).getD defaultFormat
  ignoreIllegals := g.has ignoreIllegalsOption.name
  json := g.has jsonOption.name

namespace Command

def ofGiven (g : Given) : Topic → Command
  | .highlight => .highlight (.ofGiven g)
  | .detect => .detect (.ofGiven g)
  | .listFormats => .listFormats
  | topic => .help topic

/-- Help about a command. No command has commands of its own. -/
def helpAbout : List String → Except UsageError Command
  | [] => pure (.help .program)
  | [name] =>
    match Topic.ofName? name with
    | some topic => pure (.help topic)
    | none => throw (.unknownCommand name)
  | _ :: name :: _ => throw (.unknownCommand name)

def ofTopic (topic : Topic) (arguments : List String) : Except UsageError Command :=
  match topic with
  | .help => helpAbout arguments
  | topic =>
    match readAll topic.signature arguments with
    | .ok g => pure (ofGiven g topic)
    | .error .help => pure (.help topic)
    | .error (.invalid error) => throw error

def parse : List String → Except UsageError Command
  | [] => throw .noCommand
  | first :: rest =>
    if asksFor helpOption first then pure (.help .program)
    else if asksFor versionOption first then pure .version
    else
      match Topic.ofName? first with
      | some topic => ofTopic topic rest
      | none => throw (.unknownCommand first)

end Command

end SyntaxHighlight
