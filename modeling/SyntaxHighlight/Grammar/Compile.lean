import SyntaxHighlight.Grammar.Basic
import SyntaxHighlight.Grammar.Compiled
import SyntaxHighlight.Grammar.Template

/-!
Compiling grammars. A mode whose end has nothing to do with its parent is compiled once and serves
wherever it is placed. One that ends with its parent is compiled for each place, since what ends it
includes what ends its parent.
-/
namespace SyntaxHighlight

structure Arena where
  /-- A number is taken before the mode of that number is finished. -/
  slots : Array (Option CompiledMode) := #[]
  /-- The begin of each mode whose number is taken. -/
  begins : Array String := #[]
  /-- The numbers of modes that serve wherever they are placed. -/
  shared : List (Place × Nat) := []
  /-- Modes that have to do with a copy that was made for another terminator, as too many copies
  enclose them, each with that copy. -/
  crowded : List (Nat × Nat) := []
  /-- Modes that name themselves among their contents. -/
  selves : List Nat := []
deriving Inhabited

namespace Arena

variable (a : Arena)

/-- Takes the next number for a mode with the given begin. -/
def reserve (begin : String) (sharedPlace : Option Place) : Nat × Arena :=
  let id := a.slots.size
  (id,
    { a with
      slots := a.slots.push none
      begins := a.begins.push begin
      shared := (sharedPlace.map fun p ↦ (p, id)).toList ++ a.shared })

def finish (id : Nat) (mode : CompiledMode) : Arena :=
  { a with slots := a.slots.setIfInBounds id (some mode) }

def modes : Array CompiledMode := a.slots.filterMap id

end Arena

/-- A mode that is being compiled, around the one at hand. -/
structure Enclosing where
  place : Option Place
  id : Nat
  terminator : String
  mode : Mode

/-- So many copies of one mode may enclose each other. -/
def maxNestedPlacements : Nat := 8

/-- What ends the innermost of the modes around. -/
def terminatorOf (around : List Enclosing) : String :=
  match around with
  | [] => ""
  | e :: _ => e.terminator

/-- The copies of a mode among those around, the nearest first, each with what ends the mode in
which it was placed. -/
def copiesAround (place : Place) : List Enclosing → List (Nat × String)
  | [] => []
  | e :: outer =>
    if e.place = some place then (e.id, terminatorOf outer) :: copiesAround place outer
    else copiesAround place outer

/-- A copy of the mode among those around that was placed in a mode with the same terminator as the
innermost of them has. -/
def fittingCopy? (place : Place) (around : List Enclosing) : Option Nat :=
  ((copiesAround place around).find? fun copy ↦ copy.2 = terminatorOf around).map Prod.fst

/-- The nearest copy of the mode among those around, if there are too many of them. -/
def nearestCopy? (place : Place) (around : List Enclosing) : Option Nat :=
  if maxNestedPlacements ≤ (copiesAround place around).length then
    (copiesAround place around).head?.map Prod.fst
  else none

/-- The number of a mode that is already there and is what the template would be. -/
def Arena.fitting? (a : Arena) (t : Template) (around : List Enclosing) : Option Nat := do
  let place ← t.place
  if t.mode.dependsOnParent then fittingCopy? place around else a.shared.lookup place

/-- The number of a mode that has to serve in place of the template, to come to an end. -/
def Template.makeshift? (t : Template) (around : List Enclosing) : Option Nat := do
  let place ← t.place
  if t.mode.dependsOnParent then nearestCopy? place around else none

/-- How a template is compiled within the modes around it. -/
abbrev Placing := Template → List Enclosing → Arena → Except GrammarError (Nat × Arena)

namespace Placing

/-- Compiles a template for the mode of a number, unless there is a mode that serves. -/
def place (compile : Placing) (holder : Nat) : Placing := fun t around arena ↦
  match arena.fitting? t around with
  | some id => pure (id, arena)
  | none =>
    match t.makeshift? around with
    | some id => pure (id, { arena with crowded := (holder, id) :: arena.crowded })
    | none => compile t around arena

def placeAll (compile : Placing) (own : Nat) (around : List Enclosing) :
    List Template → Arena → Except GrammarError (List Nat × Arena)
  | [], arena => pure ([], arena)
  | t :: ts, arena => do
    let (id, arena) ← place compile own t around arena
    let (ids, arena) ← placeAll compile own around ts arena
    pure (id :: ids, arena)

/-- The modes that an entry stands for, with number `i` among the contents of `t`. -/
def placeEntry (compile : Placing) (named : Dictionary Mode) (t : Template) (own : Nat)
    (around : List Enclosing) (i : Nat) (entry : Entry Mode) (arena : Arena) :
    Except GrammarError (List Nat × Arena) :=
  match entry with
  | .self => pure ([own], { arena with selves := own :: arena.selves })
  | .named name =>
    match named.get? name with
    | some mode =>
      placeAll compile own around (Template.written mode ⟨some name, []⟩).alternatives arena
    | none => throw (.unknownModeRef name)
  | .inline mode => placeAll compile own around (t.child i mode).alternatives arena

def placeEntries (compile : Placing) (named : Dictionary Mode) (t : Template) (own : Nat)
    (around : List Enclosing) :
    Nat → List (Entry Mode) → Arena → Except GrammarError (List Nat × Arena)
  | _, [], arena => pure ([], arena)
  | i, entry :: entries, arena => do
    let (ids, arena) ← placeEntry compile named t own around i entry arena
    let (others, arena) ← placeEntries compile named t own around (i + 1) entries arena
    pure (ids ++ others, arena)

/-- The mode that takes over where `t` has ended, next to it. Nothing is next to the outermost
mode. -/
def placeNext (compile : Placing) (t : Template) (own : Nat) (around : List Enclosing)
    (starts : Option Mode) (arena : Arena) : Except GrammarError (Option Nat × Arena) :=
  match starts with
  | some next =>
    if around.isEmpty then pure (none, arena)
    else do
      let (id, arena) ← place compile own (t.next next) around arena
      pure (some id, arena)
  | none => pure (none, arena)

end Placing

/-- The own end of a mode and what ends it. The outermost mode needs no end, nor does one that ends
with its parent. -/
def terminatorsOf (p : Prepared) (around : List Enclosing) : Option String × String :=
  let ending :=
    -- A mode that has neither an end nor its parent's ends at once.
    p.endSource? <|>
      if around.isEmpty || p.mode.endsWithParent then none else some Pattern.matchAnywhere
  let outer := if p.mode.endsWithParent then terminatorOf around else ""
  (ending,
    if outer.isEmpty then ending.getD ""
    else match ending with
      | some own => Pattern.concat [own, "|", outer]
      | none => outer)

/-- The rules of a mode, in order: the begins of the modes in it, its end and its illegal text. -/
def rulesOf (begins : Array String) (contains : List Nat) (terminator : String)
    (illegal : Option String) : List Rule :=
  contains.map (fun id ↦ ⟨begins.getD id "", .begins id⟩) ++
    (if terminator.isEmpty then [] else [⟨terminator, .ends⟩]) ++
    (illegal.map fun source ↦ ⟨source, .illegal⟩).toList

variable (g : Grammar) (scoring : KeywordScoring)

def Grammar.flags : Regex.Flags := ⟨g.caseInsensitive⟩

/-- The keywords of a mode, and the expression that finds words. -/
def keywordsOf (mode : Mode) :
    Except GrammarError (Option KeywordTable × Option Regex.Expr) :=
  match mode.keywords with
  | none => pure (none, none)
  | some keywords => do
    let pattern ← Pattern.compile (keywords.pattern?.getD Keywords.defaultPattern) g.flags
    pure (some (.ofKeywords scoring keywords g.caseInsensitive), some pattern)

/-- The begin of a mode, as the mode around it searches for it. The outermost mode has none. -/
def beginOf (p : Prepared) (around : List Enclosing) : Except GrammarError String :=
  if around.isEmpty then pure ""
  else do
    let begin := p.beginSource?.getD Pattern.matchAnywhere
    let _ ← Pattern.compile begin g.flags
    pure begin

/-- The compiled form of a mode, with the modes that it leads to. -/
def Prepared.compiled (p : Prepared) (begin terminator : String) (ending : Option Regex.Expr)
    (keywords : Option KeywordTable × Option Regex.Expr) (contains : List Nat)
    (starts : Option Nat) (matcher : Rule.Resumable) : CompiledMode where
  scope := match p.mode.scope with
    | some (.name s) => some s
    | _ => none
  beginTagging := p.beginTagging
  endTagging := p.endTagging
  begin
  ending
  terminator
  keywords := keywords.1
  keywordPattern := keywords.2
  relevance := p.mode.relevance.getD 1
  excludeBegin := p.mode.excludeBegin
  excludeEnd := p.mode.excludeEnd
  returnBegin := p.mode.returnBegin
  returnEnd := p.mode.returnEnd
  endsWithParent := p.mode.endsWithParent
  endsParent := p.mode.endsParent
  skip := p.mode.skip
  subLanguage := p.mode.subLanguage
  contains
  starts
  beforeBegin := p.beforeBegin
  onBegin := p.mode.onBegin
  onEnd := p.mode.onEnd
  matcher

/-- Compiles a template and all that it leads to. Fails if that takes more than `fuel` levels. -/
def compileMode : Nat → Placing
  | 0, _, _, _ => throw .endlessNesting
  | fuel + 1, t, around, arena => do
    let p ← t.mode.prepare (around.head?.map Enclosing.mode) g.extensions
    let begin ← beginOf g p around
    -- The number is taken first, as the contents may lead back to this mode.
    let (id, arena) := arena.reserve begin (if t.mode.dependsOnParent then none else t.place)
    let (ownEnd, terminator) := terminatorsOf p around
    let ending ← ownEnd.mapM fun source ↦ Pattern.compile source g.flags
    let illegal := p.illegalSource?
    let _ ← illegal.mapM fun source ↦ Pattern.compile source g.flags
    let keywords ← keywordsOf g scoring p.mode
    let within := ⟨t.place, id, terminator, p.mode⟩ :: around
    let (contains, arena) ←
      Placing.placeEntries (compileMode fuel) g.modes t id within 0 p.mode.contains arena
    -- What takes over stands beside the mode and not within it.
    let (starts, arena) ←
      Placing.placeNext (compileMode fuel) t id around p.mode.starts arena
    let matcher ← Rule.Resumable.ofRules (rulesOf arena.begins contains terminator illegal) g.flags
    pure (id,
      arena.finish id (p.compiled begin terminator ending keywords contains starts matcher))

/-! The number of modes written in a grammar. -/

mutual

def Mode.count : Mode → Nat
  | { contains, starts, variants, .. } =>
    1 + Mode.countEntries contains + (match starts with
      | some next => next.count
      | none => 0) + Mode.countAll variants

def Mode.countAll : List Mode → Nat
  | [] => 0
  | m :: ms => m.count + Mode.countAll ms

def Mode.countEntries : List (Entry Mode) → Nat
  | [] => 0
  | .inline m :: entries => m.count + Mode.countEntries entries
  | _ :: entries => Mode.countEntries entries

end

def Grammar.count : Nat := g.rootMode.count + Mode.countAll (g.modes.entries.map Prod.snd)

/-- Enough levels for every grammar whose compilation ends. A mode is placed at most
`maxNestedPlacements` times within itself, and between two modes that contain the others each mode
is met but once. -/
def Grammar.levels : Nat := ((maxNestedPlacements + 1) * g.count + 1) * (4 * g.count + 4)

def Entry.isSelf : Entry Mode → Bool
  | .self => true
  | _ => false

/-- All modes of a grammar, compiled. The outermost mode must not name itself among its contents. -/
def Grammar.arena : Except GrammarError Arena := do
  if g.contains.any Entry.isSelf then throw .selfAtTopLevel
  let (_, arena) ← compileMode g scoring g.levels (.root g.rootMode) [] {}
  pure arena

def Grammar.compile : Except GrammarError CompiledGrammar := do
  let arena ← g.arena scoring
  pure ⟨g.name, g.caseInsensitive, g.classNameAliases, g.emitTokens, arena.modes⟩

end SyntaxHighlight
