import SyntaxHighlight.Json.Printer
import SyntaxHighlight.Scan.Basic

/-! Results as JSON. What is not set is left out. -/
namespace SyntaxHighlight

def IllegalText.toJson (t : IllegalText) : Json :=
  .object [("message", .string t.message), ("index", .integer t.offset),
    ("context", .string t.context), ("mode", .string t.mode)]

namespace HighlightResult

/-- A result, and the one next to it if there is one. -/
def fields (r : HighlightResult) (second : Option Json) : Json :=
  .object
    ([("language", match r.language with
        | some name => Json.string name
        | none => .null),
      ("relevance", .integer r.relevance), ("value", .string r.value),
      ("illegal", .bool r.illegal), ("code", .string r.code)] ++
      (r.illegalBy.map fun t ↦ ("illegalBy", t.toJson)).toList ++
      (r.errorRaised.map fun s ↦ ("errorRaised", Json.string s)).toList ++
      (second.map fun j ↦ ("secondBest", j)).toList)

def toJson (r : HighlightResult) (second : Option HighlightResult) : Json :=
  r.fields (second.map fun r ↦ r.fields none)

end HighlightResult

end SyntaxHighlight
