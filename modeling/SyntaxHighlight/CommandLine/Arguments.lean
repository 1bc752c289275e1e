/-!
Arguments of a command, told apart into options and what stands by itself. An option has a long
name after two dashes, and may have a letter after a single one. A value follows as the next
argument, or in the same one after an equals sign or after the letter.
-/
namespace SyntaxHighlight.CommandLine

structure OptionSpec where
  name : String
  letter : Option Char := none
  takesValue : Bool := false
  repeats : Bool := false
  required : Bool := false
  about : String
deriving DecidableEq, Repr

/-- An argument that stands by itself. All of these are required. -/
structure PlaceSpec where
  name : String
  about : String
deriving DecidableEq, Repr

inductive UsageError where
  | noCommand
  | unknownCommand (name : String)
  | unexpected (argument : String)
  | missingValue (option : String)
  | needlessValue (option : String)
  | repeated (option : String)
  | missing (name : String)
deriving DecidableEq, Repr

def UsageError.message : UsageError → String
  | .noCommand => "a command is required"
  | .unknownCommand name => "unrecognized command '" ++ name ++ "'"
  | .unexpected argument => "unexpected argument '" ++ argument ++ "'"
  | .missingValue option => "a value is required for '--" ++ option ++ "'"
  | .needlessValue option => "no value may be given for '--" ++ option ++ "'"
  | .repeated option => "'--" ++ option ++ "' may be given only once"
  | .missing name => "'" ++ name ++ "' is required"

/-- What keeps arguments from being read to their end. -/
inductive Interruption where
  | help
  | invalid (error : UsageError)
deriving DecidableEq, Repr

structure Signature where
  options : List OptionSpec := []
  places : List PlaceSpec := []
deriving DecidableEq, Repr

/-- What a command has been given, the options and their values in order. -/
structure Given where
  options : List (String × String) := []
  plain : List String := []
deriving Repr

namespace Given

variable (g : Given)

def has (name : String) : Bool := g.options.any (·.1 = name)

def values (name : String) : List String :=
  (g.options.filter (·.1 = name)).map Prod.snd

def value? (name : String) : Option String := (g.values name).head?

end Given

/-- An argument in the form of an option. A single dash is none. -/
def looksLikeOption (argument : String) : Bool :=
  match argument.toList with
  | '-' :: _ :: _ => true
  | _ => false

def Signature.option? (s : Signature) (argument : List Char) :
    Option (OptionSpec × Option String) :=
  match argument with
  | '-' :: '-' :: rest =>
    let (name, value) := rest.span (· != '=')
    (s.options.find? (·.name = String.ofList name)).map fun option ↦
      (option, if value.isEmpty then none else some (String.ofList value.tail))
  | '-' :: letter :: rest =>
    (s.options.find? (·.letter = some letter)).map fun option ↦
      let value := match rest with
        | '=' :: rest => rest
        | _ => rest
      (option, if rest.isEmpty then none else some (String.ofList value))
  | _ => none

/-- The option that asks for help, which every command has. -/
def helpOption : OptionSpec where
  name := "help"
  letter := some 'h'
  about := "Print help"

variable (s : Signature)

def addPlain (g : Given) (argument : String) : Except Interruption Given :=
  if g.plain.length < s.places.length then pure { g with plain := g.plain ++ [argument] }
  else throw (.invalid (.unexpected argument))

def addOption (g : Given) (option : OptionSpec) (value : String) : Except Interruption Given :=
  if g.has option.name && !option.repeats then throw (.invalid (.repeated option.name))
  else pure { g with options := g.options ++ [(option.name, value)] }

/-- Whether an argument is an option that takes effect at once. More letters after its own do not
matter. -/
def asksFor (option : OptionSpec) (argument : String) : Bool :=
  argument = "--" ++ option.name ||
    match argument.toList with
    | '-' :: letter :: _ => some letter = option.letter
    | _ => false

/-- Reads arguments from the first to the last. After two dashes, all stand by themselves. -/
def readArguments : List String → Given → Except Interruption Given
  | [], g => pure g
  | argument :: rest, g => do
    if argument = "--" then rest.foldlM (addPlain s) g
    else if !looksLikeOption argument then readArguments rest (← addPlain s g argument)
    else if asksFor helpOption argument then throw .help
    else
      match s.option? argument.toList with
      | none => throw (.invalid (.unexpected argument))
      | some (option, some value) =>
        if option.takesValue then readArguments rest (← addOption g option value)
        else throw (.invalid (.needlessValue option.name))
      | some (option, none) =>
        if !option.takesValue then readArguments rest (← addOption g option "")
        else
          match rest with
          | [] => throw (.invalid (.missingValue option.name))
          | value :: rest =>
            if looksLikeOption value then throw (.invalid (.missingValue option.name))
            else readArguments rest (← addOption g option value)

def Signature.missing? (g : Given) : Option String :=
  let options := s.options.filter fun option ↦ option.required && !g.has option.name
  (options.map ("--" ++ ·.name) ++ (s.places.drop g.plain.length).map PlaceSpec.name).head?

def readAll (arguments : List String) : Except Interruption Given := do
  let g ← readArguments s arguments {}
  match s.missing? g with
  | some name => throw (.invalid (.missing name))
  | none => pure g

end SyntaxHighlight.CommandLine
