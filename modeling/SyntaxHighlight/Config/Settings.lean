import SyntaxHighlight.Config.Key
import SyntaxHighlight.Grammar.File
import SyntaxHighlight.Highlight.Settings
import SyntaxHighlight.Toml.Reader

/-!
Settings out of a configuration. It starts from the standard values; files are laid over these in
order, and single values over the files.
-/
namespace SyntaxHighlight

structure ConfigFile where
  content : Option String
  required : Bool
deriving DecidableEq, Repr

namespace ConfigFile

/-- The ending of a configuration file, which need not be given. -/
def ending : String := ".toml"

/-- The file at a path, or at the path with the usual ending. -/
def find (files : Files) (path : String) (required : Bool) : ConfigFile where
  content := (files path).toOption.or (files (path ++ ending)).toOption
  required

def read (file : ConfigFile) : Except ConfigError (List (String × ConfigValue)) :=
  match file.content with
  | none => if file.required then throw .missingFile else pure []
  | some text =>
    match Toml.read text with
    | some entries => pure entries
    | none => throw .invalidFile

end ConfigFile

namespace Settings

def tableName : String := "highlight"

def standardConfig : ConfigValue :=
  let standard : Settings := {}
  let texts (list : List String) : ConfigValue := .list (list.map ConfigValue.text)
  .table [(tableName, .table
    [("safe_mode", .bool standard.safeMode), ("class_prefix", .text standard.classPrefix),
     ("max_keyword_hits", .integer standard.maxKeywordHits),
     ("common_keywords", texts KeywordScoring.standardCommon),
     ("max_iterations", .integer standard.maxIterations),
     ("autodetect_ignore_illegals", .bool standard.autodetectIgnoreIllegals),
     ("languages", texts standard.languages)])]

/-- The names of the settings, in the order in which a list gives their values. -/
def fieldNames : List String :=
  ["safe_mode", "class_prefix", "max_keyword_hits", "common_keywords", "max_iterations",
    "autodetect_ignore_illegals", "languages"]

def decode (value : ConfigValue) : Except ConfigError Settings := do
  let fields ← match value with
    | .table entries => pure entries
    | .list items => pure (fieldNames.zip items)
    | _ => throw .wrongShape
  let field {α : Type} (name : String) (read : ConfigValue → Except ConfigError α) :
      Except ConfigError α :=
    match fields.lookup name with
    | some value => read value
    | none => throw .wrongShape
  pure
    { safeMode := ← field "safe_mode" ConfigValue.asBool
      classPrefix := ← field "class_prefix" ConfigValue.asText
      maxKeywordHits := ← field "max_keyword_hits" ConfigValue.asNatural
      commonKeywords := ← field "common_keywords" ConfigValue.asTexts
      maxIterations := ← field "max_iterations" ConfigValue.asNatural
      autodetectIgnoreIllegals := ← field "autodetect_ignore_illegals" ConfigValue.asBool
      languages := ← field "languages" ConfigValue.asTexts }

/-- The key that a text spells. -/
def overrideKey (name : String) : Except ConfigError Key :=
  match Key.parse? name with
  | some key => pure key
  | none => throw (.invalidKey name)

def overlayFile (config : ConfigValue) (file : ConfigFile) : Except ConfigError ConfigValue := do
  pure ((← file.read).foldl Key.setNamed config)

/-- The settings that files and single values determine. The keys of the single values are looked
at before any file. -/
def load (files : List ConfigFile) (overrides : List (String × ConfigValue)) :
    Except ConfigError Settings := do
  let overrides ← overrides.mapM fun (name, value) ↦ do pure (← overrideKey name, value)
  let config ← files.foldlM overlayFile standardConfig
  let config := overrides.foldl (fun config (key, value) ↦ key.set value config) config
  decode ((config.entry? tableName).getD .nothing)

end Settings

end SyntaxHighlight
