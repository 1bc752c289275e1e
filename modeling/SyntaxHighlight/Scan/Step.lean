import SyntaxHighlight.Scan.State

/-! What a rule does when it has matched: it opens a mode, closes some, or stops the scan. -/
namespace SyntaxHighlight.ScanState

variable (e : ScanSetting) (s : ScanState)

def matchData (m : Rule.Match) : MatchData := ⟨e.text, m.groups⟩

/-- Reads the character at a position as plain text, and goes on after it. -/
def stepOver (position : Nat) : ScanState :=
  let s := match e.text.get? position with
    | some c => s.keep (String.singleton c)
    | none => s
  { s with position := position + 1 }

/-- Goes on after the text of a match, or at its start if it is to be read again. -/
def goOn (m : Rule.Match) (again : Bool) : ScanState :=
  { s with
    position := if again then m.index else m.index + (m.lexeme e.text).length }

/-- Opens a mode. What is in the buffer is its begin. -/
def openMode (id : Nat) (groups : List (Option Span)) (notes : Scratch) : ScanState :=
  let mode := e.grammar.mode id
  let s := match mode.scope with
    | some scope => { s with tree := s.tree.openScope (e.grammar.aliasScope scope) }
    | none => s
  -- The scope of the mode is open by now, so the tagged begin lies within it.
  let s := match mode.beginTagging with
    | some (.whole scope) => { s.addScoped e scope s.buffer with buffer := "" }
    | some (.parts parts) => { addParts e groups parts s with buffer := "" }
    | none => s
  { s with stack := ⟨id, notes⟩ :: s.stack }

/-- Whether one of the callbacks rejects the match, and what they have noted. One that follows a
rejection is not asked. -/
def askAll (m : MatchData) (notes : Scratch) : List Callback → Bool × Scratch
  | [] => (false, notes)
  | callback :: callbacks =>
    let (rejected, notes) := callback.run m notes
    if rejected then (true, notes) else askAll m notes callbacks

/-- Adds the text of a begin as the mode that it opens wants it. -/
def addBegin (mode : CompiledMode) (m : Rule.Match) : Except ScanError ScanState := do
  let lexeme := m.lexeme e.text
  if mode.skip then pure (s.keep lexeme)
  else do
    let s ← (if mode.excludeBegin then s.keep lexeme else s).flush e
    pure (if mode.returnBegin || mode.excludeBegin then s else { s with buffer := lexeme })

/-- Opens the mode whose begin has matched, unless a callback rejects it. Then the rules after this
one get their turn at the same place; if there are none, the scan steps over a character. -/
def onBegin (id : Nat) (m : Rule.Match) (following : Nat) : Except ScanError ScanState := do
  let mode := e.grammar.mode id
  let (rejected, notes) :=
    askAll (matchData e m) .empty (mode.beforeBegin.toList ++ mode.onBegin.toList)
  if rejected then
    -- What the callbacks have noted goes with the mode that was not opened.
    if following = 0 then return s.stepOver e m.index
    else return { s with firstRule := following, position := m.index }
  let s ← s.addBegin e mode m
  pure ((s.openMode e id m.groups notes).goOn e m mode.returnBegin)

/-- How many modes close when the innermost does. A mode may take its parent along, but never the
outermost one. -/
def closing : List Frame → Nat
  | [] => 0
  | frame :: outer =>
    if (e.grammar.mode frame.mode).endsParent && 1 < outer.length then closing outer + 1 else 1

/-- Whether the end of the innermost mode matches and its callback agrees, and the mode with what
the callback has noted. -/
def endsHere (m : Rule.Match) (frame : Frame) : Bool × Frame :=
  let mode := e.grammar.mode frame.mode
  if mode.ending.any fun ending ↦ ending.matchesAt e.text m.index then
    match mode.onEnd with
    | some callback =>
      let (rejected, notes) := callback.run (matchData e m) frame.notes
      (!rejected, { frame with notes })
    | none => (true, frame)
  else (false, frame)

/-- How many modes a match of an end closes, if it closes any. A mode that ends with its parent
leaves it to the parent when its own end does not match. -/
def closedBy (m : Rule.Match) : List Frame → List Frame × Option Nat
  | [] => ([], none)
  | frame :: outer =>
    -- The frame keeps what its callback has noted, also when that rejects the end.
    let (matched, frame) := endsHere e m frame
    if matched then (frame :: outer, some (closing e (frame :: outer)))
    else if (e.grammar.mode frame.mode).endsWithParent && 1 < outer.length then
      let (outer, closed) := closedBy m outer
      (frame :: outer, closed.map (· + 1))
    else (frame :: outer, none)

/-- Closes the innermost mode. Its weight counts now, unless it was skipped or embeds a language. -/
def closeMode : ScanState :=
  match s.stack with
  | [] => s
  | frame :: outer =>
    let mode := e.grammar.mode frame.mode
    { s with
      stack := outer
      tree := if mode.scope.isSome then s.tree.closeScope else s.tree
      relevance :=
        if mode.skip || mode.subLanguage.isSome then s.relevance
        else s.relevance + mode.relevance }

def closeModes : Nat → ScanState → ScanState
  | 0, s => s
  | n + 1, s => closeModes n (s.closeMode e)

/-- Adds the text of an end as the innermost mode wants it. -/
def addEnd (m : Rule.Match) : Except ScanError ScanState := do
  let mode := s.topMode e
  let lexeme := m.lexeme e.text
  match mode.endTagging with
  | some (.whole scope) => pure ((← s.flush e).addScoped e scope lexeme)
  | some (.parts parts) => pure (addParts e m.groups parts (← s.flush e))
  | none =>
    if mode.skip then pure (s.keep lexeme)
    else do
      let s ← (if mode.returnEnd || mode.excludeEnd then s else s.keep lexeme).flush e
      pure (if mode.excludeEnd then { s with buffer := lexeme } else s)

/-- A match that means nothing here is plain text. -/
def pass (m : Rule.Match) : ScanState :=
  let lexeme := m.lexeme e.text
  if lexeme.isEmpty then s.stepOver e m.index else (s.keep lexeme).goOn e m false

/-- Closes the modes that end with the match and opens the one that the last of them starts. -/
def onEnd (m : Rule.Match) : Except ScanError ScanState := do
  let (stack, closed) := closedBy e m s.stack
  let s := { s with stack }
  match closed with
  | none => pure (s.pass e m)
  | some n =>
    -- The innermost mode tells how the end is read, the last one that closes what comes next.
    let again := (s.topMode e).returnEnd
    let last := (stack[n - 1]?.map Frame.mode).getD CompiledGrammar.rootId
    let s := closeModes e n (← s.addEnd e m)
    let s := match (e.grammar.mode last).starts with
      | some next => s.openMode e next m.groups .empty
      | none => s
    pure (s.goOn e m again)

def illegalAt (m : Rule.Match) : ScanError :=
  let mode := (s.topMode e).displayName
  .illegal ("Illegal lexeme \"" ++ m.lexeme e.text ++ "\" for mode \"" ++ mode ++ "\"")
    (e.text.byteOffset m.index) mode

/-- The mode that began just where an end now matches nothing, if that is how it is. -/
def stalled? (m : Rule.Match) : Option Nat :=
  match s.lastMatch with
  | some (.begins opened, index) =>
    if m.kind = .ends ∧ index = m.index ∧ (m.lexeme e.text).isEmpty then some opened else none
  | _ => none

/-- What a match does. `following` is the first of the rules that stay in play if it is
rejected. -/
def onMatch (m : Rule.Match) (following : Nat) : Except ScanError ScanState :=
  let s := s.keep (e.text.slice s.position m.index)
  match s.stalled? e m with
  | some opened =>
    if e.options.safeMode then pure (s.stepOver e m.index)
    else throw (.zeroWidth (e.grammar.mode opened).displayName)
  | none =>
    -- A stalled end is not noted, so the begin before it stays the last match.
    let s := { s with lastMatch := some (m.kind, m.index) }
    match m.kind with
    | .begins id => s.onBegin e id m following
    | .ends => s.onEnd e m
    | .illegal => if e.options.ignoreIllegals then pure (s.pass e m) else throw (s.illegalAt e m)

end SyntaxHighlight.ScanState
