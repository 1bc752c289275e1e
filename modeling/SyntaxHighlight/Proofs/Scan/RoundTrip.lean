import SyntaxHighlight.Proofs.Scan.Reach
import SyntaxHighlight.Proofs.Scan.Reported

/-! A scan loses no text: what it has read is in the tree or waits in the buffer. -/
namespace SyntaxHighlight

/-- A mode that does not tell the scan to read a text again that it has already kept, nor to take
an end apart that may not be its own. -/
structure CompiledMode.Orderly (m : CompiledMode) : Prop where
  returnBegin : m.returnBegin = true → m.skip = false ∧ m.excludeBegin = false
  returnEnd : m.returnEnd = true → m.skip = false ∧ m.excludeEnd = false ∧ m.endTagging = none
  endsWithParent : m.endsWithParent = true → ∀ parts, m.endTagging ≠ some (.parts parts)

/-- What a boundary that is taken apart leaves no room for. -/
structure CompiledMode.PartsAlone (m : CompiledMode) : Prop where
  begins : ∀ parts, m.beginTagging = some (.parts parts) →
    m.skip = false ∧ m.excludeBegin = false ∧ m.returnBegin = false

namespace CompiledGrammar

structure Orderly (cg : CompiledGrammar) : Prop where
  emitTokens : cg.emitTokens = none
  modes : ∀ i, (cg.mode i).Orderly
  /-- No mode that another one starts takes its begin apart, as it has none there. -/
  starts : ∀ i next parts, (cg.mode i).starts = some next →
    (cg.mode next).beginTagging ≠ some (.parts parts)

end CompiledGrammar

/-- What a scan relies on to keep its text. -/
structure ScanSetting.Safe (e : ScanSetting) : Prop where
  orderly : e.grammar.Orderly
  partsAlone : ∀ i, (e.grammar.mode i).PartsAlone
  searchable : e.grammar.Searchable
  languages : e.languages.KeepText

namespace ScanState

variable {e : ScanSetting} {s s' : ScanState} {m : Rule.Match} {start stop : Nat}

def Complete (e : ScanSetting) (s : ScanState) : Prop := s.written = e.text.slice 0 s.position

theorem complete_stepOver (h : s.written = e.text.slice 0 start) :
    Complete e (s.stepOver e start) := by
  unfold stepOver
  dsimp only
  split
  · rename_i c hc
    have hkept : (s.keep (String.singleton c)).written = e.text.slice 0 (start + 1) := by
      rw [written_keep, h, ← e.text.slice_of_get? hc,
        e.text.slice_append (Nat.zero_le _) (Nat.le_succ _)]
    exact hkept
  · rename_i hc
    have hsize := e.text.size_le_of_get? hc
    have hrest : s.written = e.text.slice 0 (start + 1) := by
      rw [h, e.text.slice_of_size_le hsize, e.text.slice_of_size_le (Nat.le_succ_of_le hsize)]
    exact hrest

section

variable {cg : CompiledGrammar} {i : Nat} (hm : m.Reported cg i e.text start stop)
include hm

theorem slice_lexeme : e.text.slice 0 m.index ++ m.lexeme e.text = e.text.slice 0 stop := by
  rw [hm.lexeme, e.text.slice_append (Nat.zero_le _) hm.index_le]

theorem goOn_position (again : Bool) :
    (s.goOn e m again).position = if again then m.index else stop := by
  have hlength := e.text.length_slice (i := m.index) hm.stop_le
  have hle := hm.index_le
  rw [goOn, hm.lexeme, hlength]
  dsimp only
  split <;> omega

theorem complete_goOn {again : Bool}
    (h : s.written = if again then e.text.slice 0 m.index else e.text.slice 0 stop) :
    Complete e (s.goOn e m again) := by
  have hgoOn : (s.goOn e m again).written = s.written := rfl
  rw [Complete, goOn_position hm, hgoOn, h]
  split <;> rfl

theorem complete_pass (h : s.written = e.text.slice 0 m.index) : Complete e (s.pass e m) := by
  unfold pass
  dsimp only
  split
  · exact complete_stepOver h
  · refine complete_goOn hm ?_
    rw [written_keep, h, slice_lexeme hm]
    rfl

end

theorem written_openMode {id : Nat} {groups : List (Option Span)} {notes : Scratch}
    (h : ∀ parts, (e.grammar.mode id).beginTagging ≠ some (.parts parts)) :
    (s.openMode e id groups notes).written = s.written := by
  cases htagging : (e.grammar.mode id).beginTagging with
  | none =>
    cases hscope : (e.grammar.mode id).scope <;> simp [openMode, hscope, htagging, written]
  | some tagging =>
    cases tagging with
    | whole scope =>
      cases hscope : (e.grammar.mode id).scope <;>
        simp [openMode, hscope, htagging, written, content_addScoped]
    | parts parts => exact absurd htagging (h parts)

/-- A begin that is taken apart takes the place of what is in the buffer. -/
theorem written_openMode_parts {id : Nat} {groups : List (Option Span)} {notes : Scratch}
    {parts : List (Nat × Option String)} (hw : e.grammar.WordsInOrder)
    (h : (e.grammar.mode id).beginTagging = some (.parts parts)) :
    (s.openMode e id groups notes).written =
      s.tree.content ++ partsText e.text groups parts := by
  cases hscope : (e.grammar.mode id).scope <;>
    simp [openMode, hscope, h, written, content_addParts e _ hw]

/-- A begin that is read again is not kept, any other one is. -/
theorem addBegin_written {mode : CompiledMode} (he : e.Safe) (hmode : mode.Orderly)
    (h : s.addBegin e mode m = .ok s') :
    s'.written = if mode.returnBegin then s.written else s.written ++ m.lexeme e.text := by
  have hflush {t u : ScanState} (ht : t.flush e = .ok u) : u.written = t.written :=
    written_flush he.searchable.words he.languages ht
  cases hreturn : mode.returnBegin with
  | true =>
    obtain ⟨hskip, hexclude⟩ := hmode.returnBegin hreturn
    simp only [addBegin, hskip, hexclude, hreturn] at h
    obtain ⟨t, ht, hs⟩ := bind_eq_ok.1 h
    cases hs
    exact hflush ht
  | false =>
    cases hskip : mode.skip with
    | true =>
      simp only [addBegin, hskip] at h
      cases h
      exact written_keep _
    | false =>
      cases hexclude : mode.excludeBegin with
      | true =>
        simp only [addBegin, hskip, hexclude, Bool.or_true, if_true] at h
        obtain ⟨t, ht, hs⟩ := bind_eq_ok.1 h
        cases hs
        exact (hflush ht).trans (written_keep _)
      | false =>
        simp only [addBegin, hskip, hexclude, hreturn] at h
        obtain ⟨t, ht, hs⟩ := bind_eq_ok.1 h
        cases hs
        have hcontent := content_flush he.searchable.words he.languages ht
        exact congrArg (· ++ m.lexeme e.text) hcontent

theorem addBegin_parts {mode : CompiledMode} {parts : List (Nat × Option String)} (he : e.Safe)
    (hmode : mode.PartsAlone) (hparts : mode.beginTagging = some (.parts parts))
    (h : s.addBegin e mode m = .ok s') : s'.tree.content = s.written := by
  obtain ⟨hskip, hexclude, hreturn⟩ := hmode.begins parts hparts
  unfold addBegin at h
  simp only [hskip, hexclude, hreturn] at h
  obtain ⟨t, ht, hs⟩ := bind_eq_ok.1 h
  have hflush := content_flush he.searchable.words he.languages ht
  cases hs
  exact hflush

theorem complete_onBegin {i id following : Nat} (h : s.onBegin e id m following = .ok s')
    (he : e.Safe) (hm : m.Reported e.grammar i e.text start stop) (hkind : m.kind = .begins id)
    (hs : s.written = e.text.slice 0 m.index) : Complete e s' := by
  unfold onBegin at h
  dsimp only at h
  split at h
  · split at h
    · cases h
      exact complete_stepOver hs
    · cases h
      exact hs
  · obtain ⟨t, ht, hs'⟩ := bind_eq_ok.1 h
    cases hs'
    refine complete_goOn hm ?_
    by_cases hparts : ∃ parts, (e.grammar.mode id).beginTagging = some (.parts parts)
    · obtain ⟨parts, hparts⟩ := hparts
      rw [written_openMode_parts he.searchable.words hparts,
        (hm.begins id parts hkind hparts).partsText_eq,
        addBegin_parts he (he.partsAlone id) hparts ht, hs,
        ((he.partsAlone id).begins _ hparts).2.2,
        e.text.slice_append (Nat.zero_le _) hm.index_le]
      rfl
    · rw [written_openMode (fun parts hp ↦ hparts ⟨parts, hp⟩),
        addBegin_written he (he.orderly.modes id) ht, hs, slice_lexeme hm]

theorem written_closeModes (n : Nat) : (closeModes e n s).written = s.written := by
  induction n generalizing s with
  | zero => rfl
  | succ n ih =>
    rw [closeModes, ih, closeMode]
    split
    · rfl
    · dsimp only
      split <;> simp [written]

/-- An end that is read again is not kept, any other one is. -/
theorem addEnd_written (he : e.Safe) (hm : m.Reported e.grammar s.topId e.text start stop)
    (hkind : m.kind = .ends) (h : s.addEnd e m = .ok s') :
    s'.written = if (s.topMode e).returnEnd then s.written else s.written ++ m.lexeme e.text := by
  have hmode : (s.topMode e).Orderly := he.orderly.modes s.topId
  cases hreturn : (s.topMode e).returnEnd with
  | true =>
    obtain ⟨hskip, hexclude, htagging⟩ := hmode.returnEnd hreturn
    simp only [addEnd, htagging, hskip, hexclude, hreturn, Bool.true_or, if_true] at h
    obtain ⟨t, ht, hs⟩ := bind_eq_ok.1 h
    cases hs
    exact written_flush he.searchable.words he.languages ht
  | false =>
    have htext : endText e (s.topMode e) m = m.lexeme e.text := by
      unfold endText
      split
      · rename_i parts htagging
        have hends : (s.topMode e).endsWithParent = false := by
          cases hp : (s.topMode e).endsWithParent with
          | false => rfl
          | true => exact absurd htagging (hmode.endsWithParent hp parts)
        rw [(hm.ends parts hkind hends htagging).partsText_eq, hm.lexeme]
      · rfl
    rw [written_addEnd he.searchable.words he.languages hreturn h, htext]
    rfl

theorem topId_eq (s : ScanState) :
    s.topId = (s.stack.map Frame.mode).head?.getD CompiledGrammar.rootId := by
  rw [topId]
  split <;> simp [*]

theorem complete_onEnd (h : s.onEnd e m = .ok s') (he : e.Safe)
    (hm : m.Reported e.grammar s.topId e.text start stop) (hkind : m.kind = .ends)
    (hs : s.written = e.text.slice 0 m.index) : Complete e s' := by
  unfold onEnd at h
  rcases hc : closedBy e m s.stack with ⟨stack, closed⟩
  simp only [hc] at h
  have htop : ({ s with stack } : ScanState).topId = s.topId := by
    rw [topId_eq, topId_eq, map_mode_of_closedBy hc]
  cases closed with
  | none =>
    cases h
    exact complete_pass hm hs
  | some n =>
    obtain ⟨t, ht, hs'⟩ := bind_eq_ok.1 h
    cases hs'
    have hadded := addEnd_written he (htop ▸ hm) hkind ht
    have hclosed : (closeModes e n t).written =
        if (({ s with stack } : ScanState).topMode e).returnEnd then e.text.slice 0 m.index
        else e.text.slice 0 stop := by
      rw [written_closeModes, hadded, ← slice_lexeme hm, ← hs]
      rfl
    refine complete_goOn hm ?_
    split
    · rename_i next hnext
      rw [written_openMode (fun parts ↦ he.orderly.starts _ next parts hnext)]
      exact hclosed
    · exact hclosed

/-- What a match does loses no text. -/
theorem complete_onMatch {following : Nat} (h : s.onMatch e m following = .ok s') (he : e.Safe)
    (hm : m.Reported e.grammar s.topId e.text s.position stop) (hs : Complete e s) :
    Complete e s' := by
  have hkept : (s.keep (e.text.slice s.position m.index)).written = e.text.slice 0 m.index := by
    rw [written_keep, hs, e.text.slice_append (Nat.zero_le _) hm.start_le]
  unfold onMatch at h
  dsimp only at h
  split at h
  · split at h
    · cases h
      exact complete_stepOver hkept
    · cases h
  · split at h
    · rename_i id hkind
      exact complete_onBegin h he hm hkind hkept
    · rename_i hkind
      have hstep := complete_onEnd h he hm hkind hkept
      exact hstep
    · split at h
      · cases h
        exact complete_pass hm hkept
      · cases h

theorem complete_turn (he : e.Safe) (hs : Complete e s) (h : s.turn e = .ok (some s')) :
    Complete e s' := by
  obtain ⟨m, following, hm, hmatch⟩ := turn_eq_some h
  obtain ⟨stop, hreported⟩ := he.searchable.reported hm
  have hstep := complete_onMatch hmatch he hreported hs
  exact hstep

theorem complete_start (c : Option Continuation) : Complete e (e.start c) := by
  have hscopes : ∀ (scopes : List String) (tree : TreeBuilder), (scopes.foldl
      (fun tree scope ↦ tree.openScope (e.grammar.aliasScope scope)) tree).content =
        tree.content := by
    intro scopes tree
    induction scopes generalizing tree with
    | nil => rfl
    | cons scope scopes ih => rw [List.foldl_cons, ih, TreeBuilder.content_openScope]
  have hcontent : (e.start c).tree.content = "" := hscopes _ {}
  rw [Complete, written, hcontent]
  simp [ScanSetting.start, reopen]

end ScanState

namespace ScanSetting

variable {e : ScanSetting} {c : Option Continuation}

theorem Reached.complete (he : e.Safe) {s : ScanState} (h : Reached e c s) :
    ScanState.Complete e s := by
  induction h with
  | start => exact ScanState.complete_start c
  | turn _ hturn ih => exact ScanState.complete_turn he ih hturn

/-- The tree of a scan has the text that was scanned. -/
theorem run_keepsText (he : e.Safe) {output : ScanOutput} (h : e.run c = .ok output) :
    output.tree.plainText = e.text.rest 0 := by
  obtain ⟨s, s', hs, -, hrest, rfl⟩ := run_eq_ok he.orderly.emitTokens h
  have hread := ScanState.content_flush he.searchable.words he.languages hrest
  rw [ScanState.output, TreeBuilder.plainText_toTree, hread, ScanState.written_keep,
    hs.complete he]
  by_cases hle : s.position ≤ e.text.size
  · exact e.text.slice_append (Nat.zero_le _) hle
  · rw [e.text.slice_of_size_le (Nat.le_of_not_le hle),
      e.text.rest_of_size_le (Nat.le_of_not_le hle), String.append_empty]

end ScanSetting

end SyntaxHighlight
