import SyntaxHighlight.Mode.Extension
import SyntaxHighlight.Pattern.Reference

/-!
Modes in their plain form. Everything that a mode may say in a shorter way is spelled out: its
begin and its end are single patterns, its illegal text is one, and its relevance is set.
-/
namespace SyntaxHighlight

/-- The scopes of the text of a begin or an end. -/
inductive Tagging where
  | whole (scope : String)
  /-- Groups in order; the text of a group without a scope is searched for keywords. -/
  | parts (groups : List (Nat × Option String))
deriving DecidableEq, Repr, Inhabited

structure Prepared where
  mode : Mode
  beginTagging : Option Tagging := none
  endTagging : Option Tagging := none
  /-- Comes before the callback of the mode itself. -/
  beforeBegin : Option Callback := none
deriving Inhabited

namespace Boundary

/-- The pattern of a single one, unless it is empty. -/
def source? : Option Boundary → Option String
  | some (.source s) => if s.isEmpty then none else some s
  | _ => none

/-- One pattern for a boundary; that of none is empty. -/
def flattened : Option Boundary → String
  | some (.source s) => s
  | some (.sequence parts) => Pattern.flattenSequence parts
  | none => ""

end Boundary

namespace Prepared

variable (p : Prepared)

def beginSource? : Option String := Boundary.source? p.mode.begin

def endSource? : Option String := Boundary.source? p.mode.ending

def illegalSource? : Option String :=
  match p.mode.illegal with
  | some (.source s) => if s.isEmpty then none else some s
  | _ => none

end Prepared

namespace Mode

def nameScope (mode : Mode) : Mode :=
  match mode.className with
  | some name => { mode with scope := some (.name name), className := none }
  | none => mode

def takeMatching (mode : Mode) : Except GrammarError Mode :=
  match mode.matching with
  | none => pure mode
  | some b =>
    if mode.begin.isSome || mode.ending.isSome then throw .matchWithBeginEnd
    else pure { mode with begin := some b, matching := none }

/-- A mode with something before it becomes a mode of its own that begins there, and looks ahead
to the begin of the mode. When it ends, which is at once, the mode itself begins. -/
def wrapBeforeMatch (mode : Mode) : Except GrammarError Mode :=
  match mode.beforeMatch with
  | none => pure mode
  | some before =>
    if mode.starts.isSome then throw .beforeMatchWithStarts
    else
      let inner := { mode with beforeMatch := none, endsParent := true }
      pure
        { keywords := mode.keywords
          begin := some (.source
            (Pattern.concat [before, Pattern.lookahead (Boundary.flattened mode.begin)]))
          relevance := some 0
          -- `inner` ends its parent, which does nothing but hold it.
          starts := some { relevance := some 0, contains := [.inline inner] } }

def extended (extensions : List Extension) (parent : Option Mode) (mode : Mode) :
    Except GrammarError Mode :=
  extensions.foldlM (fun mode e ↦ e.apply mode parent) mode

def notAfterDot : Callback := [.ignoreAfter (some '.')]

/-- The words with which a mode begins are its keywords too, unless it has others. They do not
count for the outermost mode. -/
def takeBeginKeywords (hasParent : Bool) (mode : Mode) : Mode × Option Callback :=
  match mode.beginKeywords with
  | some words =>
    if hasParent then
      ({ mode with
          beginKeywords := none
          begin := some (.source (Pattern.concat
            ["\\b(", "|".intercalate (Text.words words), ")(?!\\.)(?=\\b|\\s)"]))
          keywords := mode.keywords <|> some (.plain (.text words))
          relevance := mode.relevance <|> some 0 },
        some notAfterDot)
    else (mode, none)
  | none => (mode, none)

def joinIllegal (mode : Mode) : Mode :=
  match mode.illegal with
  | some (.anyOf sources) => { mode with illegal := some (.source (Pattern.either sources)) }
  | _ => mode

def setRelevance (mode : Mode) : Mode := { mode with relevance := mode.relevance <|> some 1 }

/-- Scopes for captures belong to the begin. -/
def moveCaptures (mode : Mode) : Mode :=
  match mode.scope with
  | some (.captures names) => { mode with scope := none, beginScope := some (.captures names) }
  | _ => mode

/-- The groups of parts in the pattern of a sequence, where `group` is the number of the first and
`part` its place in the sequence. -/
def partGroups (names : List (Nat × String)) (group part : Nat) :
    List String → Except GrammarError (List (Nat × Option String))
  | [] => pure []
  | source :: sources => do
    let inner ← Pattern.countGroups source
    let others ← partGroups names (group + inner + 1) (part + 1) sources
    pure ((group, names.lookup part) :: others)

/-- The tagging of a boundary, and its single pattern. A sequence needs a scope for its parts, and
the flags that leave its text to another mode must be off. -/
def tagBoundary (boundary : Option Boundary) (scope : Option Scope) (flagged : Bool)
    (flagReason scopeReason : String) : Except GrammarError (Option Boundary × Option Tagging) :=
  match boundary, scope with
  | some (.sequence parts), some (.captures names) => do
    if flagged then throw (.multiCapture flagReason)
    let groups ← partGroups names 1 1 parts
    pure (some (.source (Pattern.flattenSequence parts)), some (.parts groups))
  | some (.sequence _), _ => throw (.multiCapture (if flagged then flagReason else scopeReason))
  | boundary, some (.name scope) => pure (boundary, some (.whole scope))
  | boundary, _ => pure (boundary, none)

/-- The plain form of a mode. -/
def prepare (mode : Mode) (parent : Option Mode) (extensions : List Extension) :
    Except GrammarError Prepared := do
  let mode ← takeMatching mode.nameScope
  let mode ← wrapBeforeMatch mode
  -- Extensions come before the words of a begin are spelled out, so they may still set them.
  let mode ← mode.extended extensions parent
  let (mode, beforeBegin) := mode.takeBeginKeywords parent.isSome
  let mode := mode.joinIllegal.setRelevance.moveCaptures
  let (begin, beginTagging) ← tagBoundary mode.begin mode.beginScope
    (mode.skip || mode.excludeBegin || mode.returnBegin)
    "skip, excludeBegin, returnBegin not compatible with beginScope"
    "beginScope must be a capture map"
  let (ending, endTagging) ← tagBoundary mode.ending mode.endScope
    (mode.skip || mode.excludeEnd || mode.returnEnd)
    "skip, excludeEnd, returnEnd not compatible with endScope"
    "endScope must be a capture map"
  pure ⟨{ mode with begin, ending }, beginTagging, endTagging, beforeBegin⟩

end Mode

end SyntaxHighlight
