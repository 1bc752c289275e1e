import SyntaxHighlight.Grammar.Compile
import SyntaxHighlight.Scan.Basic

/-!
Languages by name. Names are told apart up to case. A grammar is compiled when it is first needed,
and each registration compiles its own.
-/
namespace SyntaxHighlight

structure Registration where
  number : Nat
  grammar : Grammar
  compiled : Thunk (Except GrammarError CompiledGrammar)

structure Registry where
  /-- Whether plain text takes the place of a grammar that is broken. -/
  safeMode : Bool
  scoring : KeywordScoring
  /-- Registrations by the lowercase name. -/
  languages : Dictionary Registration := .empty
  /-- The lowercase names that other names stand for. -/
  aliases : Dictionary String := .empty
  next : Nat := 0
  substitute : Thunk (Except GrammarError CompiledGrammar) :=
    Thunk.mk fun _ ↦ Grammar.plaintext.compile scoring

namespace Registry

open Unicode

variable (r : Registry)

/-- The registration under a lowercase name, which may be an alias. -/
def resolve? (key : String) : Option Registration :=
  match r.languages.get? key with
  | some registration => some registration
  | none => (r.aliases.get? key).bind r.languages.get?

def find? (name : String) : Option Registration := r.resolve? (lowercase name)

/-- Registers a grammar and its own aliases. If there is no grammar, plain text takes its place in
safe mode. -/
def register (name : String) (made : Except GrammarError Grammar) :
    Except GrammarError Registry := do
  let grammar ← match made with
    | .ok grammar => pure grammar
    | .error cause => if r.safeMode then pure .plaintext else throw cause
  let grammar := if grammar.name.isEmpty then { grammar with name } else grammar
  let key := lowercase name
  let compiled := Thunk.mk fun _ ↦ grammar.compile r.scoring
  pure
    { r with
      languages := r.languages.insert key ⟨r.next, grammar, compiled⟩
      aliases := grammar.aliases.foldl (fun d other ↦ d.insert (lowercase other) key) r.aliases
      next := r.next + 1 }

/-- Removes a language and every alias that stands for it. -/
def unregister (name : String) : Registry :=
  let key := lowercase name
  { r with languages := r.languages.erase key, aliases := r.aliases.filter (· ≠ key) }

def registerAliases (names : List String) (language : String) : Registry :=
  { r with
    aliases := names.foldl (fun d name ↦ d.insert (lowercase name) (lowercase language)) r.aliases }

def names : List String := r.languages.names

def grammar? (name : String) : Option Grammar := (r.find? name).map Registration.grammar

def isKnown (name : String) : Bool := (r.find? name).isSome

def autodetects (name : String) : Bool := (r.grammar? name).any fun g ↦ !g.disableAutodetect

def supersetOf? (name : String) : Option String := (r.grammar? name).bind Grammar.supersetOf

def plaintext : Except HighlightError LoadedGrammar :=
  match r.substitute.get with
  | .ok grammar => pure ⟨.substitute, grammar⟩
  | .error cause => throw (.grammar Grammar.plaintextName cause)

/-- The compiled grammar for a name or an alias. -/
def load (name : String) : Except HighlightError LoadedGrammar :=
  match r.find? name with
  | none => throw (.unknownLanguage name)
  | some registration =>
    match registration.compiled.get with
    | .ok grammar => pure ⟨.registered registration.number, grammar⟩
    -- The registration stays as it is, so each request for it comes here again.
    | .error cause => if r.safeMode then r.plaintext else throw (.grammar name cause)

end Registry

end SyntaxHighlight
