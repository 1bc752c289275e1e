import SyntaxHighlight.Data.Decode
import SyntaxHighlight.Grammar.Basic

/-! Grammars out of structured data. -/
namespace SyntaxHighlight

namespace WordList

def decode : Data → Except DataError WordList := Data.oneOrMore .text .items

end WordList

namespace Keywords

def decode (d : Data) : Except DataError Keywords :=
  d.textOr (fun s ↦ .plain (.text s)) fun d ↦
    match d.texts true with
    | .ok words => pure (.plain (.items words))
    | .error _ => .scoped <$> d.dictionary true WordList.decode

end Keywords

namespace Scope

/-- The number of a part, in digits or as a number. -/
def decodePart (key : Data) : Except DataError Nat :=
  let part? := match key.meaning with
    | .text s => natural? greatest64 s.toList
    | .integer n => if 0 ≤ n then some n.toNat else none
    | _ => none
  match part? with
  | some part => pure part
  | none => throw .malformed

def decode : Data → Except DataError Scope :=
  Data.textOr .name fun d ↦ do
    let names ← (← d.entries true).mapM fun (key, value) ↦ do
      pure (← decodePart key, ← value.asText true)
    pure (.ofCaptures names)

end Scope

namespace Mode

/-- The fields of a mode, in the order in which a list gives their values. -/
def fieldNames : List String :=
  ["scope", "className", "beginScope", "endScope", "begin", "end", "match", "beforeMatch",
    "beginKeywords", "keywords", "illegal", "contains", "starts", "variants", "relevance",
    "excludeBegin", "excludeEnd", "returnBegin", "returnEnd", "endsWithParent", "endsParent",
    "skip", "subLanguage"]

def boundary : Data → Except DataError Boundary := Data.oneOrMore .source .sequence

/-- Sets a field that holds no modes. -/
def setField (bare : Bool) (m : Mode) (field : String) (d : Data) : Except DataError Mode := do
  match field with
  | "scope" => pure { m with scope := ← d.optional Scope.decode }
  | "className" => pure { m with className := ← d.optional (Data.asText bare) }
  | "beginScope" => pure { m with beginScope := ← d.optional Scope.decode }
  | "endScope" => pure { m with endScope := ← d.optional Scope.decode }
  | "begin" => pure { m with begin := ← d.optional boundary }
  | "end" => pure { m with ending := ← d.optional boundary }
  | "match" => pure { m with matching := ← d.optional boundary }
  | "beforeMatch" => pure { m with beforeMatch := ← d.optional (Data.asText bare) }
  | "beginKeywords" => pure { m with beginKeywords := ← d.optional (Data.asText bare) }
  | "keywords" => pure { m with keywords := ← d.optional Keywords.decode }
  | "illegal" => pure { m with illegal := ← d.optional (Data.oneOrMore .source .anyOf) }
  | "relevance" => pure { m with relevance := ← d.optional Data.number }
  | "excludeBegin" => pure { m with excludeBegin := ← d.flag }
  | "excludeEnd" => pure { m with excludeEnd := ← d.flag }
  | "returnBegin" => pure { m with returnBegin := ← d.flag }
  | "returnEnd" => pure { m with returnEnd := ← d.flag }
  | "endsWithParent" => pure { m with endsWithParent := ← d.flag }
  | "endsParent" => pure { m with endsParent := ← d.flag }
  | "skip" => pure { m with skip := ← d.flag }
  | "subLanguage" => pure { m with subLanguage := ← d.optional (Data.oneOrMore .fixed .detect) }
  | _ => pure m

/-- The name in a reference to a named mode, if the map is one. -/
def reference? (entries : List (Data × Data)) : Option String :=
  let refs := entries.filter fun (key, _) ↦
    match Data.field ["ref"] true key with
    | .ok (some _) => true
    | _ => false
  match refs with
  | [(_, value)] => (value.asText true).toOption
  | _ => none

mutual

/-- A mode. It is a map of fields, or a list of the values of the first of them. -/
def decode (bare : Bool) : Data → Except DataError Mode
  | .map entries => decodeFields bare {} [] entries
  | .list items => decodeValues bare {} fieldNames items
  | .word s _ => if s.isEmpty && !bare then pure {} else throw .malformed
  | _ => throw .malformed

def decodeFields (bare : Bool) (m : Mode) (seen : List String) :
    List (Data × Data) → Except DataError Mode
  | [] => pure m
  | (key, value) :: entries => do
    match ← Data.field fieldNames bare key with
    | none => if value.isBroken then throw .malformed else decodeFields bare m seen entries
    | some field =>
      if seen.contains field then throw .malformed
      let m ← decodeField bare m field value
      decodeFields bare m (field :: seen) entries

def decodeValues (bare : Bool) (m : Mode) : List String → List Data → Except DataError Mode
  | _, [] => pure m
  | [], _ :: _ => throw .malformed
  | field :: fields, value :: values => do
    let m ← decodeField bare m field value
    decodeValues bare m fields values

def decodeField (bare : Bool) (m : Mode) (field : String) : Data → Except DataError Mode
  | .list items => do
    match field with
    | "contains" => pure { m with contains := ← decodeEntries items }
    | "variants" => pure { m with variants := ← decodeAll bare items }
    | "starts" => pure { m with starts := some (← decodeValues bare {} fieldNames items) }
    | _ => setField bare m field (.list items)
  | .map entries => do
    match field with
    | "contains" | "variants" => throw .malformed
    | "starts" => pure { m with starts := some (← decodeFields bare {} [] entries) }
    | _ => setField bare m field (.map entries)
  | d =>
    match field with
    | "contains" | "variants" => (fun _ ↦ m) <$> d.items bare
    | "starts" =>
      match d.meaning with
      | .null => pure m
      | _ => throw .malformed
    | _ => setField bare m field d

def decodeAll (bare : Bool) : List Data → Except DataError (List Mode)
  | [] => pure []
  | item :: items => do
    let m ← decode bare item
    let others ← decodeAll bare items
    pure (m :: others)

def decodeEntries : List Data → Except DataError (List (Entry Mode))
  | [] => pure []
  | item :: items => do
    let entry ← decodeEntry item
    let others ← decodeEntries items
    pure (entry :: others)

/-- A mode within another is looked at as a whole first. What is wrong deep within it is then no
longer told apart. -/
def decodeEntry : Data → Except DataError (Entry Mode)
  | .text s => if s = "self" then pure .self else throw (.unknownMarker s)
  | .map entries =>
    if Data.entryBroken entries then throw .malformed
    else
      match reference? entries with
      | some name => pure (.named name)
      | none =>
        match decodeFields true {} [] entries with
        | .ok m => pure (.inline m)
        | .error _ => throw .malformed
  | .list items =>
    if Data.anyBroken items then throw .malformed
    else
      match decodeValues true {} fieldNames items with
      | .ok m => pure (.inline m)
      | .error _ => throw .malformed
  | _ => throw .malformed

end

end Mode

namespace Grammar

def fieldNames : List String :=
  ["name", "aliases", "caseInsensitive", "unicodeRegex", "disableAutodetect", "supersetOf",
    "keywords", "contains", "illegal", "classNameAliases", "modes"]

/-- Fields that may be written in another way. -/
def spelledName (name : String) : String :=
  if name = "case_insensitive" then "caseInsensitive" else name

def setField (g : Grammar) (field : String) (d : Data) : Except DataError Grammar := do
  match field with
  | "name" => pure { g with name := ← d.asText false }
  | "aliases" => pure { g with aliases := ← d.texts false }
  | "caseInsensitive" => pure { g with caseInsensitive := ← d.flag }
  | "unicodeRegex" => pure { g with unicodeRegex := ← d.flag }
  | "disableAutodetect" => pure { g with disableAutodetect := ← d.flag }
  | "supersetOf" => pure { g with supersetOf := ← d.optional (Data.asText false) }
  | "keywords" => pure { g with keywords := ← d.optional Keywords.decode }
  | "contains" => pure { g with contains := ← Mode.decodeEntries (← d.items false) }
  | "illegal" => pure { g with illegal := ← d.optional (Data.oneOrMore .source .anyOf) }
  | "classNameAliases" =>
    pure { g with classNameAliases := ← d.dictionary false (Data.asText false) }
  | "modes" => pure { g with modes := ← d.dictionary false (Mode.decode false) }
  | _ => pure g

def decodeFields (g : Grammar) (seen : List String) : List (Data × Data) → Except DataError Grammar
  | [] => pure g
  | (key, value) :: entries => do
    match ← Data.field ("case_insensitive" :: fieldNames) false key with
    | none => if value.isBroken then throw .malformed else decodeFields g seen entries
    | some name =>
      let field := spelledName name
      if seen.contains field then throw .malformed
      let g ← setField g field value
      decodeFields g (field :: seen) entries

def decode : Data → Except DataError Grammar
  | .map entries => decodeFields {} [] entries
  | .list items => do
    if fieldNames.length < items.length then
      let _ ← (fieldNames.zip items).foldlM (fun g (field, value) ↦ setField g field value) {}
      throw .malformed
    (fieldNames.zip items).foldlM (fun g (field, value) ↦ setField g field value) {}
  | .word s _ => if s.isEmpty then pure {} else throw .malformed
  | _ => throw .malformed

end Grammar

end SyntaxHighlight
