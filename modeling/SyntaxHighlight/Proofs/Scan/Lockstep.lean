import SyntaxHighlight.Proofs.Grammar.Wiring
import SyntaxHighlight.Proofs.Scan.Nesting
import SyntaxHighlight.Proofs.Scan.Reported
import SyntaxHighlight.Proofs.Scan.Root

/-! The open modes and the open scopes move in step: whatever a scan goes on from, the scopes that
are open between two turns are those of the modes above the outermost one, in the same order. -/
namespace SyntaxHighlight

/-- Open modes of a grammar: the outermost one lies at the bottom, and there only. -/
structure Stacked (cg : CompiledGrammar) (stack : List Frame) : Prop where
  rooted : Rooted stack
  inner : ∀ id ∈ (stack.map Frame.mode).dropLast, cg.IsInner id

namespace Stacked

variable {cg : CompiledGrammar} {stack stack' : List Frame}

theorem root (cg : CompiledGrammar) : Stacked cg [{ mode := CompiledGrammar.rootId }] :=
  ⟨rfl, by simp⟩

theorem cons (h : Stacked cg stack) {frame : Frame} (hframe : cg.IsInner frame.mode) :
    Stacked cg (frame :: stack) := by
  refine ⟨h.rooted.cons frame, fun id hid ↦ ?_⟩
  rw [List.map_cons, List.dropLast_cons_of_ne_nil (by simpa using h.rooted.ne_nil)] at hid
  obtain rfl | hid := List.mem_cons.1 hid
  · exact hframe
  · exact h.inner id hid

theorem of_map_mode (h : Stacked cg stack) (hm : stack'.map Frame.mode = stack.map Frame.mode) :
    Stacked cg stack' :=
  ⟨h.rooted.of_map_mode hm, hm ▸ h.inner⟩

theorem drop (h : Stacked cg stack) {n : Nat} (hn : n < stack.length) :
    Stacked cg (stack.drop n) := by
  refine ⟨h.rooted.drop hn, fun id hid ↦ h.inner id ?_⟩
  rw [List.map_drop, List.dropLast_drop_eq_drop_dropLast] at hid
  exact List.mem_of_mem_drop hid

theorem modes_eq (h : Stacked cg stack) :
    stack.map Frame.mode = (stack.map Frame.mode).dropLast ++ [CompiledGrammar.rootId] := by
  have hlast : (stack.map Frame.mode).getLast? = some CompiledGrammar.rootId := by
    rw [List.getLast?_map]
    exact h.rooted
  exact (List.dropLast_append_getLast? _ hlast).symm

theorem count_root (h : Stacked cg stack) :
    (stack.map Frame.mode).count CompiledGrammar.rootId = 1 := by
  have habove : (stack.map Frame.mode).dropLast.count CompiledGrammar.rootId = 0 :=
    List.count_eq_zero.2 fun hmem ↦ (h.inner _ hmem).1 rfl
  rw [h.modes_eq, List.count_append, habove]
  rfl

theorem lt_size (h : Stacked cg stack) (hroot : CompiledGrammar.rootId < cg.modes.size)
    {frame : Frame} (hframe : frame ∈ stack) : frame.mode < cg.modes.size := by
  have hmem : frame.mode ∈ stack.map Frame.mode := List.mem_map_of_mem hframe
  rw [h.modes_eq] at hmem
  obtain hmem | hmem := List.mem_append.1 hmem
  · exact (h.inner _ hmem).2
  · rw [List.mem_singleton.1 hmem]
    exact hroot

end Stacked

namespace ScanState

variable {e : ScanSetting} {s s' : ScanState} {m : Rule.Match}

/-- A mode that begins does so by a rule of the innermost mode, so it is a mode of the grammar. -/
theorem next_begins_inner (hw : e.grammar.Wired) {first start following : Nat} {i id : Nat}
    (h : (e.grammar.mode i).matcher.next first e.text start = .ok (some (m, following)))
    (hm : m.kind = .begins id) : e.grammar.IsInner id := by
  obtain ⟨rule, hrule, hkind⟩ := Rule.Resumable.next_begins h hm
  exact hw.begins i rule hrule id hkind

theorem StackStep.stacked {stack stack' : List Frame} (h : StackStep e m stack stack')
    (hw : e.grammar.Wired) (hending : e.grammar.root.ending = none)
    (hbegins : ∀ id, m.kind = .begins id → e.grammar.IsInner id)
    (hs : Stacked e.grammar stack) : Stacked e.grammar stack' := by
  cases h with
  | same => exact hs
  | opens stack notes hm => exact hs.cons (hbegins _ hm)
  | stays hm hc => exact hs.of_map_mode (map_mode_of_closedBy hc)
  | @closes _ after n hm hc =>
    have hmodes := map_mode_of_closedBy hc
    have hlength : after.length = stack.length := by simpa using congrArg List.length hmodes
    have hlt : n < after.length := hlength ▸ closedBy_lt_of_rooted hending hs.rooted hc
    have hdrop := (hs.of_map_mode hmodes).drop hlt
    cases hstarts : (e.grammar.mode
        ((after[n - 1]?.map Frame.mode).getD CompiledGrammar.rootId)).starts with
    | none => exact hdrop
    | some next => exact hdrop.cons (hw.starts _ _ hstarts)

theorem keeps_stacked (hw : e.grammar.Wired) (hending : e.grammar.root.ending = none) :
    e.Keeps (Stacked e.grammar) := by
  intro s s' hs h
  obtain ⟨m, following, hm, hstep⟩ := turn_stack h
  exact hstep.stacked hw hending (fun _ hbegins ↦ next_begins_inner hw hm hbegins) hs

/-- The open scopes are those of the open modes. -/
def InStep (e : ScanSetting) (s : ScanState) : Prop := s.tree.openNames = e.openScopes s.stack

namespace InStep

theorem congr (h : InStep e s) (htree : s'.tree.openNames = s.tree.openNames)
    (hstack : s'.stack.map Frame.mode = s.stack.map Frame.mode) : InStep e s' := by
  rw [InStep, htree, e.openScopes_congr hstack]
  exact h

theorem openMode (h : InStep e s) (hs : s.stack ≠ []) (id : Nat) (groups : List (Option Span))
    (notes : Scratch) : InStep e (s.openMode e id groups notes) := by
  rw [InStep, openNames_openMode, openMode_stack, e.openScopes_cons _ hs]
  exact congrArg _ h

theorem closeMode (h : InStep e s) (hs : 1 < s.stack.length) : InStep e (s.closeMode e) := by
  obtain ⟨frame, outer, hstack⟩ := List.exists_cons_of_length_pos (Nat.zero_lt_of_lt hs)
  have houter : outer ≠ [] := by
    rintro rfl
    simp [hstack] at hs
  rw [InStep, hstack, e.openScopes_cons _ houter, ScanSetting.scopeOf] at h
  simp only [InStep, ScanState.closeMode, hstack]
  cases hscope : (e.grammar.mode frame.mode).scope with
  | none => simpa [hscope] using h
  | some scope => simpa [hscope] using congrArg List.tail h

theorem closeModes {n : Nat} (h : InStep e s) (hn : n < s.stack.length) :
    InStep e (closeModes e n s) := by
  induction n generalizing s with
  | zero => exact h
  | succ n ih =>
    have hstack : (s.closeMode e).stack = s.stack.drop 1 := closeModes_stack 1
    exact ih (h.closeMode (by omega)) (by rw [hstack, List.length_drop]; omega)

theorem onBegin {id following : Nat} (h : InStep e s) (hs : s.stack ≠ [])
    (hbegin : s.onBegin e id m following = .ok s') : InStep e s' := by
  unfold ScanState.onBegin at hbegin
  dsimp only at hbegin
  split at hbegin
  · split at hbegin
    · cases hbegin
      exact h.congr (openNames_stepOver _) (by rw [stepOver_stack])
    · cases hbegin
      exact h
  · obtain ⟨t, ht, hs'⟩ := bind_eq_ok.1 hbegin
    cases hs'
    have hstack : t.stack = s.stack := addBegin_stack ht
    have hread : InStep e t := h.congr (openNames_addBegin ht) (by rw [hstack])
    exact hread.openMode (hstack ▸ hs) id m.groups _

theorem onEnd (h : InStep e s) (hending : e.grammar.root.ending = none) (hs : Rooted s.stack)
    (hend : s.onEnd e m = .ok s') : InStep e s' := by
  rcases hc : closedBy e m s.stack with ⟨stack, closed⟩
  have hmodes := map_mode_of_closedBy hc
  have hasked : InStep e { s with stack } := h.congr rfl hmodes
  unfold ScanState.onEnd at hend
  simp only [hc] at hend
  cases closed with
  | none =>
    cases hend
    exact hasked.congr openNames_pass (by rw [pass_stack])
  | some n =>
    obtain ⟨t, ht, hs'⟩ := bind_eq_ok.1 hend
    cases hs'
    have hstack : t.stack = stack := addEnd_stack ht
    have hlt : n < t.stack.length := by
      have hlength : stack.length = s.stack.length := by simpa using congrArg List.length hmodes
      rw [hstack, hlength]
      exact closedBy_lt_of_rooted hending hs hc
    have hread : InStep e t := hasked.congr (openNames_addEnd ht) (by rw [hstack])
    have hclosed := hread.closeModes hlt
    split
    · have hleft : (ScanState.closeModes e n t).stack ≠ [] := by
        rw [closeModes_stack]
        exact List.ne_nil_of_length_pos (by rw [List.length_drop]; omega)
      exact hclosed.openMode hleft _ _ _
    · exact hclosed

theorem onMatch {following : Nat} (h : InStep e s) (hending : e.grammar.root.ending = none)
    (hs : Rooted s.stack) (hmatch : s.onMatch e m following = .ok s') : InStep e s' := by
  unfold ScanState.onMatch at hmatch
  dsimp only at hmatch
  have hkept : InStep e (s.keep (e.text.slice s.position m.index)) := h
  split at hmatch
  · split at hmatch
    · cases hmatch
      exact hkept.congr (openNames_stepOver _) (by rw [stepOver_stack])
    · cases hmatch
  · split at hmatch
    · exact onBegin (s := { s.keep (e.text.slice s.position m.index) with
        lastMatch := some (m.kind, m.index) }) h hs.ne_nil hmatch
    · exact onEnd (s := { s.keep (e.text.slice s.position m.index) with
        lastMatch := some (m.kind, m.index) }) h hending hs hmatch
    · split at hmatch
      · cases hmatch
        exact hkept.congr openNames_pass (by rw [pass_stack])
      · cases hmatch

theorem turn (h : InStep e s) (hending : e.grammar.root.ending = none) (hs : Rooted s.stack)
    (hturn : s.turn e = .ok (some s')) : InStep e s' := by
  obtain ⟨m, following, -, hmatch⟩ := turn_eq_some hturn
  exact onMatch (s := { s with iterations := s.iterations + 1, firstRule := 0 }) h hending hs hmatch

end InStep

theorem openNames_foldl_openScope (write : String → String) (scopes : List String)
    (b : TreeBuilder) :
    (scopes.foldl (fun tree scope ↦ tree.openScope (write scope)) b).openNames =
      (scopes.map write).reverse ++ b.openNames := by
  induction scopes generalizing b with
  | nil => rfl
  | cons scope scopes ih => simp [ih]

theorem inStep_reopen (stack : List Frame) : InStep e (reopen e { stack }) := by
  simp only [InStep, reopen, openNames_foldl_openScope]
  simp only [ScanSetting.openScopes, ← List.map_dropLast, List.filterMap_map,
    ← List.filterMap_reverse, List.map_filterMap, List.reverse_reverse, TreeBuilder.openNames]
  exact List.append_nil _

end ScanState

namespace ScanSetting

variable {e : ScanSetting} {c : Option Continuation}

theorem Resumes.stacked {loaded : LoadedGrammar} (hw : loaded.grammar.Wired)
    (hending : loaded.grammar.root.ending = none) (hc : Resumes loaded c) {e : ScanSetting}
    (he : e.loaded = loaded) : Stacked e.grammar (e.startStack c) := by
  have hgrammar {f : ScanSetting} (hf : f.loaded = loaded) : f.grammar = loaded.grammar :=
    congrArg LoadedGrammar.grammar hf
  rw [hgrammar he]
  refine hc.startStack (Stacked.root _) (fun f hf ↦ ?_) he
  rw [← hgrammar hf] at hw hending ⊢
  exact ScanState.keeps_stacked hw hending

theorem Reached.stacked {s : ScanState} (hw : e.grammar.Wired)
    (hending : e.grammar.root.ending = none) (hc : Stacked e.grammar (e.startStack c))
    (hs : Reached e c s) : Stacked e.grammar s.stack :=
  (ScanState.keeps_stacked hw hending).reached hc hs

theorem Reached.inStep {s : ScanState} (hw : e.grammar.Wired)
    (hending : e.grammar.root.ending = none) (hc : Stacked e.grammar (e.startStack c))
    (hs : Reached e c s) : ScanState.InStep e s := by
  induction hs with
  | start => exact ScanState.inStep_reopen _
  | turn hs hturn ih => exact ih.turn hending (hs.stacked hw hending hc).rooted hturn

/-- Between any two turns of a scan, the open scopes are those of the modes above the outermost one,
in the same order. The outermost mode is open once, below the others, and every open mode is a mode
of the grammar. -/
theorem scopes_in_step {g : Grammar} {scoring : KeywordScoring}
    (hg : g.compile scoring = .ok e.grammar) (hext : g.extensions = [])
    (hc : Resumes e.loaded c) {s : ScanState} (hs : Reached e c s) :
    s.tree.opened.length =
        s.stack.dropLast.countP (fun frame ↦ (e.grammar.mode frame.mode).scope.isSome) ∧
      s.tree.openNames = s.stack.dropLast.filterMap (fun frame ↦ e.scopeOf frame.mode) ∧
      Rooted s.stack ∧ (s.stack.map Frame.mode).count CompiledGrammar.rootId = 1 ∧
      ∀ frame ∈ s.stack, frame.mode < e.grammar.modes.size := by
  have hw := Grammar.compile_wired hg
  have hending : e.grammar.root.ending = none := by
    have hno : ¬ g.EndsRoot := Grammar.not_endsRoot (by simp [hext])
    exact Option.not_isSome_iff_eq_none.1 (mt (Grammar.compile_root_ending hg).1 hno)
  have hstart := hc.stacked hw hending rfl
  have hstacked := hs.stacked hw hending hstart
  have hnames : s.tree.openNames =
      s.stack.dropLast.filterMap fun frame ↦ e.scopeOf frame.mode := by
    rw [hs.inStep hw hending hstart, openScopes, ← List.map_dropLast, List.filterMap_map]
    rfl
  refine ⟨?_, hnames, hstacked.rooted, hstacked.count_root, fun _ ↦ hstacked.lt_size hw.root⟩
  have hlength := congrArg List.length hnames
  rw [TreeBuilder.openNames, List.length_map, List.length_filterMap_eq_countP] at hlength
  simpa [scopeOf] using hlength

/-- Parentheses within parentheses, under another name than the grammar gives them. -/
def parens : Grammar where
  classNameAliases := Dictionary.empty.insert "p" "paren"
  contains := [.inline
    { scope := some (.name "p")
      begin := some (.source "\\(")
      ending := some (.source "\\)")
      contains := [.self] }]

theorem parens_in_step :
    ∃ output s, (parens.alone "((").run none = .ok output ∧
      ((parens.alone "(").start (some output.continuation)).turn (parens.alone "(") =
        .ok (some s) ∧
      s.stack.map Frame.mode = [1, 1, 1, CompiledGrammar.rootId] ∧
      s.tree.openNames = ["paren", "paren", "paren"] := by
  have hg : parens.compile default = .ok (parens.alone "(").grammar :=
    Grammar.compile_alone (by cbv) _
  have hfirst : ((parens.alone "((").run none).toOption.map ScanOutput.continuation =
      some ⟨.substitute, [{ mode := 1 }, { mode := 1 }, { mode := CompiledGrammar.rootId }]⟩ := by
    cbv
  obtain ⟨output, hrun, hcontinuation⟩ := eq_ok_of_map hfirst
  have hsecond : ((((parens.alone "(").start (some
        ⟨.substitute, [{ mode := 1 }, { mode := 1 }, { mode := CompiledGrammar.rootId }]⟩)).turn
      (parens.alone "(")).toOption.join.map ScanState.stack) =
      some [{ mode := 1 }, { mode := 1 }, { mode := 1 }, { mode := CompiledGrammar.rootId }] := by
    cbv
  obtain ⟨s, hturn, hstack⟩ := eq_ok_some hsecond
  rw [← hcontinuation] at hturn
  have hresumes : Resumes (parens.alone "(").loaded (some output.continuation) :=
    .scanned (e := parens.alone "((") rfl .fresh hrun
  obtain ⟨-, hnames, -⟩ := scopes_in_step hg rfl hresumes (.turn .start hturn)
  refine ⟨output, s, hrun, hturn, by rw [hstack]; rfl, ?_⟩
  rw [hnames, hstack]
  have hscope : (parens.alone "(").scopeOf 1 = some "paren" := by cbv
  simp [hscope]

end ScanSetting

end SyntaxHighlight
