import SyntaxHighlight.Scan.Step

/-! Scanning a text from its start to its end. -/
namespace SyntaxHighlight

namespace ScanState

variable (e : ScanSetting) (s : ScanState)

/-- Opens the scopes of the modes that a continuation has left open. The outermost mode has none. -/
def reopen : ScanState :=
  let scopes := s.stack.dropLast.reverse.filterMap fun frame ↦ (e.grammar.mode frame.mode).scope
  { s with
    tree := scopes.foldl (fun tree scope ↦ tree.openScope (e.grammar.aliasScope scope)) s.tree }

/-- Whether a scan goes on for longer than what it has read can justify. -/
def isRunaway (index : Nat) : Bool :=
  e.options.maxIterations < s.iterations && 3 * e.text.byteOffset index < s.iterations

/-- One turn of a scan; none if no rule matches any more. -/
def turn : Except ScanError (Option ScanState) :=
  let s := { s with iterations := s.iterations + 1 }
  match (s.topMode e).matcher.next s.firstRule e.text s.position with
  | .error cause => throw (.pattern cause)
  | .ok none => pure none
  | .ok (some (m, following)) =>
    -- Only a turn that has found a match counts: a text read to its end is no runaway.
    if s.isRunaway e m.index then throw (.runaway s.iterations)
    else some <$> { s with firstRule := 0 }.onMatch e m following

/-- Takes turns until no rule matches. -/
def turns : Nat → ScanState → Except ScanError ScanState
  | 0, s => throw (.runaway s.iterations)
  | fuel + 1, s => do
    match ← s.turn e with
    | some s => turns fuel s
    | none => pure s

/-- A scan that takes more turns than this is a runaway. -/
def maxTurns : Nat := max e.options.maxIterations (3 * e.text.bytes) + 2

/-- Reads what is left as plain text. -/
def readRest : Except ScanError ScanState := (s.keep (e.text.rest s.position)).flush e

def output : ScanOutput := ⟨s.tree.toTree, s.relevance, e.loaded.id, s.stack⟩

end ScanState

namespace ScanSetting

variable (e : ScanSetting)

/-- The modes that are open at the start: those of the continuation, if it comes from the same
grammar, or else the outermost mode alone. -/
def startStack (continuation : Option Continuation) : List Frame :=
  match continuation with
  | some c =>
    if c.grammar = e.loaded.id ∧ c.stack ≠ [] then c.stack else [{ mode := CompiledGrammar.rootId }]
  | none => [{ mode := CompiledGrammar.rootId }]

/-- Scans the text. A grammar that writes the tree by itself is not searched for. -/
def run (continuation : Option Continuation) : Except ScanError ScanOutput := do
  let s : ScanState := { stack := e.startStack continuation }
  match e.grammar.emitTokens with
  | some emission => pure ({ s with tree := emission.emit e.text.toString s.tree }.output e)
  | none =>
    let s ← ScanState.turns e (ScanState.maxTurns e) (s.reopen e)
    pure ((← s.readRest e).output e)

end ScanSetting

end SyntaxHighlight
