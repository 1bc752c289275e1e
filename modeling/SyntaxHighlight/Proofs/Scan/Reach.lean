import SyntaxHighlight.Grammar.Compile
import SyntaxHighlight.Proofs.Scan.Stack

/-! The states of a scan, and the continuations that scans leave behind. -/
namespace SyntaxHighlight

/-- A text in the language of a grammar, with no other language at hand. -/
def Grammar.alone (g : Grammar) (text : String) : ScanSetting where
  loaded := ⟨.substitute, (g.compile default).toOption.getD default⟩
  options := ⟨true, false, 10, 7⟩
  languages := ⟨fun _ ↦ false, fun _ _ _ ↦ .error .endlessEmbedding,
    fun _ _ ↦ .error .endlessEmbedding⟩
  text := .ofString text

theorem Grammar.compile_alone {g : Grammar} (h : (g.compile default).isOk = true) (text : String) :
    g.compile default = .ok (g.alone text).grammar :=
  eq_ok_of_isOk h default

namespace ScanSetting

/-- The state in which a scan starts. -/
def start (e : ScanSetting) (c : Option Continuation) : ScanState :=
  ScanState.reopen e { stack := e.startStack c }

/-- A state between two turns of a scan. -/
inductive Reached (e : ScanSetting) (c : Option Continuation) : ScanState → Prop
  | start : Reached e c (e.start c)
  | turn {s s' : ScanState} : Reached e c s → s.turn e = .ok (some s') → Reached e c s'

variable {e : ScanSetting} {c : Option Continuation}

theorem Reached.of_turns {s s' : ScanState} {n : Nat} (hs : Reached e c s)
    (h : ScanState.turns e n s = .ok s') : Reached e c s' ∧ s'.turn e = .ok none := by
  induction n generalizing s with
  | zero => cases h
  | succ n ih =>
    obtain ⟨next, hnext, hrest⟩ := bind_eq_ok.1 h
    cases next with
    | none =>
      cases hrest
      exact ⟨hs, hnext⟩
    | some t => exact ih (hs.turn hnext) hrest

/-- A scan that succeeds has come to a state in which no rule matches any more, and has read what is
left as plain text. -/
theorem run_eq_ok {output : ScanOutput} (he : e.grammar.emitTokens = none)
    (h : e.run c = .ok output) :
    ∃ s s', Reached e c s ∧ s.turn e = .ok none ∧ s.readRest e = .ok s' ∧
      output = s'.output e := by
  simp only [run, he] at h
  obtain ⟨s, hs, hrest⟩ := bind_eq_ok.1 h
  obtain ⟨s', hs', hout⟩ := bind_eq_ok.1 hrest
  cases hout
  obtain ⟨hreach, hend⟩ := Reached.of_turns .start hs
  exact ⟨s, s', hreach, hend, hs', rfl⟩

/-- A grammar that writes the tree by itself is not searched for. -/
theorem run_eq_ok_of_emitTokens {output : ScanOutput} {emission : Emission}
    (he : e.grammar.emitTokens = some emission) (h : e.run c = .ok output) :
    output = ScanState.output e
      { stack := e.startStack c, tree := emission.emit e.text.toString {} } := by
  simp only [run, he] at h
  cases h
  rfl

theorem continuation_grammar {output : ScanOutput} (h : e.run c = .ok output) :
    output.continuation.grammar = e.loaded.id := by
  cases he : e.grammar.emitTokens with
  | none =>
    obtain ⟨s, s', -, -, -, rfl⟩ := run_eq_ok he h
    rfl
  | some emission =>
    rw [run_eq_ok_of_emitTokens he h]
    rfl

/-- What a scan with a loaded grammar may go on from: nothing, where an earlier scan with it has
stopped, or where a scan with another grammar has. -/
inductive Resumes (loaded : LoadedGrammar) : Option Continuation → Prop
  | fresh : Resumes loaded none
  | foreign {c : Continuation} : c.grammar ≠ loaded.id → Resumes loaded (some c)
  | scanned {e : ScanSetting} {c : Option Continuation} {output : ScanOutput} :
      e.loaded = loaded → Resumes loaded c → e.run c = .ok output →
      Resumes loaded (some output.continuation)

/-- No turn takes a property from the open modes. -/
def Keeps (e : ScanSetting) (P : List Frame → Prop) : Prop :=
  ∀ ⦃s s' : ScanState⦄, P s.stack → s.turn e = .ok (some s') → P s'.stack

variable {P : List Frame → Prop}

theorem Keeps.reached {s : ScanState} (hkeeps : e.Keeps P) (hc : P (e.startStack c))
    (hs : Reached e c s) : P s.stack := by
  induction hs with
  | start => exact hc
  | turn _ hturn ih => exact hkeeps ih hturn

theorem output_of_reached {output : ScanOutput} (hc : P (e.startStack c))
    (hreached : ∀ s, Reached e c s → P s.stack) (h : e.run c = .ok output) :
    P output.continuation.stack := by
  cases he : e.grammar.emitTokens with
  | none =>
    obtain ⟨s, s', hs, -, hrest, rfl⟩ := run_eq_ok he h
    have hstack : s'.stack = s.stack := (ScanState.steady_flush hrest).stack
    rw [ScanState.output, hstack]
    exact hreached s hs
  | some emission =>
    rw [run_eq_ok_of_emitTokens he h]
    exact hc

/-- A property that the outermost mode has alone, and that stays while a scan goes on, holds at the
start of every scan, whatever it goes on from. -/
theorem Resumes.startStack_of_reached {loaded : LoadedGrammar} (hc : Resumes loaded c)
    (hroot : P [{ mode := CompiledGrammar.rootId }])
    (hreached : ∀ (f : ScanSetting) (c : Option Continuation), f.loaded = loaded →
      Resumes loaded c → P (f.startStack c) → ∀ s, Reached f c s → P s.stack)
    {e : ScanSetting} (he : e.loaded = loaded) : P (e.startStack c) := by
  induction hc generalizing e with
  | fresh => exact hroot
  | foreign hne =>
    rw [ScanSetting.startStack, if_neg (by simp [he, hne])]
    exact hroot
  | scanned hf hc hrun ih =>
    have hstack := output_of_reached (ih hf) (hreached _ _ hf hc (ih hf)) hrun
    unfold ScanSetting.startStack
    dsimp only
    split
    · exact hstack
    · exact hroot

theorem Resumes.startStack {loaded : LoadedGrammar} (hc : Resumes loaded c)
    (hroot : P [{ mode := CompiledGrammar.rootId }])
    (hkeeps : ∀ f : ScanSetting, f.loaded = loaded → f.Keeps P) {e : ScanSetting}
    (he : e.loaded = loaded) : P (e.startStack c) :=
  hc.startStack_of_reached hroot (fun f _ hf _ hstart _ hs ↦ (hkeeps f hf).reached hstart hs) he

end ScanSetting

end SyntaxHighlight
