import SyntaxHighlight.Proofs.Agreement
import SyntaxHighlight.Proofs.Scan.Reach

/-!
Two scans that take the same way through a text. They may write different trees, count differently
and take texts embedded in them differently; what is open, what is read and what stops them is the
same. A scan never looks at its tree or its relevance, so one that starts beside another stays
beside it.
-/
namespace SyntaxHighlight

/-- How far two scans may be apart. -/
structure Leeway where
  /-- The errors after which nothing is asked of the second scan. -/
  excused : ScanError → Prop
  tree : TreeBuilder → TreeBuilder → Prop
  relevance : Nat → Nat → Prop
  result : HighlightResult → HighlightResult → Prop

namespace Leeway

variable (w : Leeway)

/-- Two groups of languages come to results that are not further apart, for texts that a mode
embeds. -/
def Embeds (l l' : Languages) : SubLanguage → Prop
  | .fixed name => l'.isKnown name = l.isKnown name ∧ (l.isKnown name = true →
      ∀ text c, Agree (w.excused ∘ .embedded) w.result (l.highlight name text c)
        (l'.highlight name text c))
  | .detect names =>
    ∀ text, Agree (w.excused ∘ .embedded) w.result (l.detect text names) (l'.detect text names)

/-- States that differ in what has been written and counted alone. -/
inductive Alike (s : ScanState) : ScanState → Prop
  | mk {tree : TreeBuilder} {relevance : Nat} : w.tree s.tree tree →
      w.relevance s.relevance relevance → Alike s { s with tree, relevance }

/-- What two scans hand back. -/
structure Outputs (o o' : ScanOutput) : Prop where
  tree : ∃ b b', w.tree b b' ∧ o.tree = b.toTree ∧ o'.tree = b'.toTree
  relevance : w.relevance o.relevance o'.relevance
  continuation : o'.continuation = o.continuation

end Leeway

/-- Two settings of a scan that are the same but for what the leeway covers. -/
structure ScanSetting.Parallel (w : Leeway) (e e' : ScanSetting) : Prop where
  id : e'.loaded.id = e.loaded.id
  mode : ∀ i, e'.grammar.mode i = e.grammar.mode i
  caseInsensitive : e'.grammar.caseInsensitive = e.grammar.caseInsensitive
  emitTokens : e'.grammar.emitTokens = e.grammar.emitTokens
  text : e'.text = e.text
  maxIterations : e'.options.maxIterations = e.options.maxIterations
  safeMode : e'.options.safeMode = e.options.safeMode ∨
    e.options.safeMode = false ∧ ∀ rule, w.excused (.zeroWidth rule)
  ignoreIllegals : e'.options.ignoreIllegals = e.options.ignoreIllegals ∨
    e.options.ignoreIllegals = false ∧
      ∀ message offset mode, w.excused (.illegal message offset mode)
  empty : w.tree {} {}
  zero : w.relevance 0 0
  addText : ∀ {b b'} text, w.tree b b' → w.tree (b.addText text) (b'.addText text)
  openScope : ∀ {b b'} scope, w.tree b b' →
    w.tree (b.openScope (e.grammar.aliasScope scope)) (b'.openScope (e'.grammar.aliasScope scope))
  closeScope : ∀ {b b'}, w.tree b b' → w.tree b.closeScope b'.closeScope
  emit : ∀ emission, e.grammar.emitTokens = some emission →
    w.tree (emission.emit e.text.toString {}) (emission.emit e.text.toString {})
  close : ∀ {n n'} k, w.relevance n n' → w.relevance (n + k) (n' + k)
  hit : ∀ {n n'} hits k, w.relevance n n' →
    w.relevance (if hits ≤ e.options.maxKeywordHits then n + k else n)
      (if hits ≤ e'.options.maxKeywordHits then n' + k else n')
  embed : ∀ {b b' r r'}, w.result r r' → w.tree b b' →
    w.tree (b.embed r.tree r.language) (b'.embed r'.tree r'.language)
  add : ∀ {n n' r r'}, w.result r r' → w.relevance n n' →
    w.relevance (n + r.relevance) (n' + r'.relevance)
  continuation : ∀ {r r'}, w.result r r' → r'.continuation = r.continuation
  languages : ∀ i sub, (e.grammar.mode i).subLanguage = some sub →
    w.Embeds e.languages e'.languages sub

namespace ScanState

variable {w : Leeway} {e e' : ScanSetting} {s s' : ScanState} {m : Rule.Match}

theorem stack_alike (h : w.Alike s s') : s'.stack = s.stack := by
  cases h
  rfl

theorem buffer_alike (h : w.Alike s s') : s'.buffer = s.buffer := by
  cases h
  rfl

theorem position_alike (h : w.Alike s s') : s'.position = s.position := by
  cases h
  rfl

theorem alike_setBuffer (h : w.Alike s s') (text : String) :
    w.Alike { s with buffer := text } { s' with buffer := text } := by
  cases h with
  | mk ht hr => exact .mk ht hr

theorem alike_setStack (h : w.Alike s s') (stack : List Frame) :
    w.Alike { s with stack } { s' with stack } := by
  cases h with
  | mk ht hr => exact .mk ht hr

theorem alike_push (h : w.Alike s s') (frame : Frame) :
    w.Alike { s with stack := frame :: s.stack } { s' with stack := frame :: s'.stack } := by
  rw [stack_alike h]
  exact alike_setStack h _

theorem alike_keep (h : w.Alike s s') (text : String) : w.Alike (s.keep text) (s'.keep text) := by
  cases h with
  | mk ht hr => exact .mk ht hr

section

variable (p : e.Parallel w e')
include p

theorem topMode_parallel (h : w.Alike s s') : s'.topMode e' = s.topMode e := by
  cases h
  exact p.mode _

theorem matchData_parallel : matchData e' m = matchData e m := by
  rw [matchData, p.text, matchData]

theorem alike_stepOver (h : w.Alike s s') (position : Nat) :
    w.Alike (s.stepOver e position) (s'.stepOver e' position) := by
  cases h with
  | mk ht hr =>
    simp only [stepOver, p.text]
    split <;> exact .mk ht hr

theorem alike_goOn (h : w.Alike s s') (again : Bool) :
    w.Alike (s.goOn e m again) (s'.goOn e' m again) := by
  cases h with
  | mk ht hr =>
    simp only [goOn, p.text]
    exact .mk ht hr

theorem alike_pass (h : w.Alike s s') : w.Alike (s.pass e m) (s'.pass e' m) := by
  simp only [pass, p.text]
  split
  · exact alike_stepOver p h _
  · exact alike_goOn p (alike_keep h _) false

/-! Writing. -/

theorem alike_addText (h : w.Alike s s') (text : String) :
    w.Alike (s.addText text) (s'.addText text) := by
  cases h with
  | mk ht hr => exact .mk (p.addText text ht) hr

theorem addScoped_parallel {b b' : TreeBuilder} (h : w.tree b b') (scope text : String) :
    w.tree (b.addScoped (e.grammar.aliasScope scope) text)
      (b'.addScoped (e'.grammar.aliasScope scope) text) := by
  unfold TreeBuilder.addScoped
  split
  · exact h
  · exact p.closeScope (p.addText text (p.openScope scope h))

theorem alike_addScoped (h : w.Alike s s') (scope text : String) :
    w.Alike (s.addScoped e scope text) (s'.addScoped e' scope text) := by
  cases h with
  | mk ht hr => exact .mk (addScoped_parallel p ht scope text) hr

theorem alike_hit (h : w.Alike s s') (word : String) (keyword : Keyword) :
    w.Alike (s.hit e word keyword) (s'.hit e' word keyword) := by
  cases h with
  | mk ht hr =>
    simp only [hit, p.caseInsensitive]
    exact .mk ht (p.hit _ _ hr)

theorem alike_addKeyword (h : w.Alike s s') (plain word : String) (keyword : Keyword) :
    w.Alike (s.addKeyword e plain word keyword).1 (s'.addKeyword e' plain word keyword).1 ∧
      (s'.addKeyword e' plain word keyword).2 = (s.addKeyword e plain word keyword).2 := by
  have hhit := alike_hit p (alike_addText p h plain) word keyword
  unfold addKeyword
  dsimp only
  split
  · exact ⟨hhit, rfl⟩
  · exact ⟨alike_addScoped p hhit _ _, rfl⟩

theorem alike_addWords (h : w.Alike s s') (table : KeywordTable) (text : Text) (last : Nat)
    (plain : String) (spans : List Span) :
    w.Alike (addWords e table text last plain spans s)
      (addWords e' table text last plain spans s') := by
  induction spans generalizing s s' last plain with
  | nil => exact alike_addText p h _
  | cons span spans ih =>
    obtain ⟨start, stop⟩ := span
    simp only [addWords]
    split
    · exact ih h _ _
    · obtain ⟨hs, hplain⟩ := alike_addKeyword p h (plain ++ text.slice last start)
        (text.slice start stop) ‹_›
      rw [hplain]
      exact ih hs _ _

theorem alike_addKeywords (h : w.Alike s s') (text : String) :
    w.Alike (s.addKeywords e text) (s'.addKeywords e' text) := by
  simp only [addKeywords, topMode_parallel p h]
  split
  · exact alike_addWords p h _ _ _ _ _
  · exact alike_addText p h text

theorem alike_addParts (h : w.Alike s s') (groups : List (Option Span))
    (parts : List (Nat × Option String)) :
    w.Alike (addParts e groups parts s) (addParts e' groups parts s') := by
  induction parts generalizing s s' with
  | nil => exact h
  | cons part parts ih =>
    obtain ⟨group, scope⟩ := part
    simp only [addParts, p.text]
    split
    · exact ih h
    · apply ih
      split
      · exact alike_addScoped p h _ _
      · exact alike_addKeywords p h _

theorem alike_embed (h : w.Alike s s') {r r' : HighlightResult} (hresult : w.result r r')
    (weight : Nat) : w.Alike (s.embed r weight) (s'.embed r' weight) := by
  cases h with
  | mk ht hr =>
    refine .mk (p.embed hresult ht) ?_
    show w.relevance (if _ then _ else _) (if _ then _ else _)
    split
    · exact p.add hresult hr
    · exact hr

theorem agree_addEmbedded (h : w.Alike s s') {sub : SubLanguage}
    (hsub : w.Embeds e.languages e'.languages sub) (text : String) (weight : Nat) :
    Agree w.excused w.Alike (s.addEmbedded e sub text weight)
      (s'.addEmbedded e' sub text weight) := by
  unfold addEmbedded
  split
  · exact .ok h
  · cases sub with
    | fixed name =>
      obtain ⟨hknown, hresults⟩ := hsub
      simp only [hknown]
      split
      · rename_i hname
        have hcontinuations : s'.continuations = s.continuations := by
          cases h
          rfl
        rw [hcontinuations]
        have hagree := hresults hname text (s.continuations.get? name)
        generalize e.languages.highlight name text (s.continuations.get? name) = x at hagree ⊢
        generalize e'.languages.highlight name text (s.continuations.get? name) = x' at hagree ⊢
        cases hagree with
        | @ok r r' hresult =>
          refine .ok (alike_embed p ?_ hresult weight)
          rw [p.continuation hresult]
          cases h with
          | mk ht hr => exact .mk ht hr
        | error cause => exact .error _
        | excused x' hcause => exact .excused _ hcause
      · exact .ok (alike_addText p h text)
    | detect names =>
      have hagree := hsub text
      dsimp only
      generalize e.languages.detect text names = x at hagree ⊢
      generalize e'.languages.detect text names = x' at hagree ⊢
      cases hagree with
      | ok hresult => exact .ok (alike_embed p h hresult weight)
      | error cause => exact .error _
      | excused x' hcause => exact .excused _ hcause

theorem agree_flush (h : w.Alike s s') :
    Agree w.excused w.Alike (s.flush e) (s'.flush e') := by
  have hempty := alike_setBuffer h ""
  simp only [flush, topMode_parallel p h, buffer_alike h]
  split
  · rename_i sub hsub
    exact agree_addEmbedded p hempty (p.languages _ _ hsub) _ _
  · exact .ok (alike_addKeywords p hempty _)

/-! What a match does. -/

theorem alike_openScope (h : w.Alike s s') (scope : Option String) :
    w.Alike
      (match scope with
        | some scope => { s with tree := s.tree.openScope (e.grammar.aliasScope scope) }
        | none => s)
      (match scope with
        | some scope => { s' with tree := s'.tree.openScope (e'.grammar.aliasScope scope) }
        | none => s') := by
  cases scope with
  | none => exact h
  | some scope =>
    cases h with
    | mk ht hr => exact .mk (p.openScope _ ht) hr

theorem alike_tag (h : w.Alike s s') (groups : List (Option Span)) (tagging : Option Tagging) :
    w.Alike
      (match tagging with
        | some (.whole scope) => { s.addScoped e scope s.buffer with buffer := "" }
        | some (.parts parts) => { addParts e groups parts s with buffer := "" }
        | none => s)
      (match tagging with
        | some (.whole scope) => { s'.addScoped e' scope s'.buffer with buffer := "" }
        | some (.parts parts) => { addParts e' groups parts s' with buffer := "" }
        | none => s') := by
  split
  · rw [buffer_alike h]
    exact alike_setBuffer (alike_addScoped p h _ _) ""
  · exact alike_setBuffer (alike_addParts p h _ _) ""
  · exact h

theorem alike_openMode (h : w.Alike s s') (id : Nat) (groups : List (Option Span))
    (notes : Scratch) :
    w.Alike (s.openMode e id groups notes) (s'.openMode e' id groups notes) := by
  have hscoped := alike_openScope p h (e.grammar.mode id).scope
  have htagged := alike_tag p hscoped groups (e.grammar.mode id).beginTagging
  have hopened := alike_push htagged ⟨id, notes⟩
  rw [openMode, openMode, p.mode]
  exact hopened

theorem agree_addBegin (h : w.Alike s s') (mode : CompiledMode) :
    Agree w.excused w.Alike (s.addBegin e mode m) (s'.addBegin e' mode m) := by
  simp only [addBegin, p.text]
  split
  · exact .ok (alike_keep h _)
  · have hread : w.Alike (if mode.excludeBegin then s.keep (m.lexeme e.text) else s)
        (if mode.excludeBegin then s'.keep (m.lexeme e.text) else s') := by
      split
      · exact alike_keep h _
      · exact h
    refine (agree_flush p hread).bind fun t t' ht ↦ .ok ?_
    split
    · exact ht
    · exact alike_setBuffer ht _

theorem agree_onBegin (h : w.Alike s s') (id following : Nat) :
    Agree w.excused w.Alike (s.onBegin e id m following) (s'.onBegin e' id m following) := by
  simp only [onBegin, p.mode, matchData_parallel p]
  split
  · split
    · exact .ok (alike_stepOver p h _)
    · refine .ok ?_
      cases h with
      | mk ht hr => exact .mk ht hr
  · refine (agree_addBegin p h _).bind fun t t' ht ↦ .ok ?_
    exact alike_goOn p (alike_openMode p ht _ _ _) _

theorem closing_parallel (stack : List Frame) : closing e' stack = closing e stack := by
  induction stack with
  | nil => rfl
  | cons frame outer ih => rw [closing, closing, p.mode, ih]

theorem endsHere_parallel (frame : Frame) : endsHere e' m frame = endsHere e m frame := by
  simp only [endsHere, p.mode, p.text, matchData_parallel p]

theorem closedBy_parallel (stack : List Frame) : closedBy e' m stack = closedBy e m stack := by
  induction stack with
  | nil => rfl
  | cons frame outer ih =>
    simp only [closedBy, endsHere_parallel p, closing_parallel p, p.mode, ih]

theorem alike_closeMode (h : w.Alike s s') : w.Alike (s.closeMode e) (s'.closeMode e') := by
  unfold closeMode
  rw [stack_alike h]
  split
  · exact h
  · cases h with
    | mk ht hr =>
      simp only [p.mode]
      refine .mk ?_ ?_
      · show w.tree (if _ then _ else _) (if _ then _ else _)
        split
        · exact p.closeScope ht
        · exact ht
      · show w.relevance (if _ then _ else _) (if _ then _ else _)
        split
        · exact hr
        · exact p.close _ hr

theorem alike_closeModes (h : w.Alike s s') (n : Nat) :
    w.Alike (closeModes e n s) (closeModes e' n s') := by
  induction n generalizing s s' with
  | zero => exact h
  | succ n ih => exact ih (alike_closeMode p h)

theorem agree_addEnd (h : w.Alike s s') :
    Agree w.excused w.Alike (s.addEnd e m) (s'.addEnd e' m) := by
  simp only [addEnd, topMode_parallel p h, p.text]
  split
  · exact (agree_flush p h).bind fun t t' ht ↦ .ok (alike_addScoped p ht _ _)
  · exact (agree_flush p h).bind fun t t' ht ↦ .ok (alike_addParts p ht _ _)
  · split
    · exact .ok (alike_keep h _)
    · have hread : w.Alike
          (if (s.topMode e).returnEnd || (s.topMode e).excludeEnd then s
            else s.keep (m.lexeme e.text))
          (if (s.topMode e).returnEnd || (s.topMode e).excludeEnd then s'
            else s'.keep (m.lexeme e.text)) := by
        split
        · exact h
        · exact alike_keep h _
      refine (agree_flush p hread).bind fun t t' ht ↦ .ok ?_
      split
      · exact alike_setBuffer ht _
      · exact ht

theorem agree_onEnd (h : w.Alike s s') :
    Agree w.excused w.Alike (s.onEnd e m) (s'.onEnd e' m) := by
  rcases hc : closedBy e m s.stack with ⟨stack, closed⟩
  have hnoted := alike_setStack h stack
  simp only [onEnd, closedBy_parallel p, stack_alike h, hc]
  cases closed with
  | none => exact .ok (alike_pass p hnoted)
  | some n =>
    simp only [topMode_parallel p hnoted, p.mode]
    refine (agree_addEnd p hnoted).bind fun t t' ht ↦ .ok ?_
    apply alike_goOn p
    split
    · exact alike_openMode p (alike_closeModes p ht n) _ _ _
    · exact alike_closeModes p ht n

theorem illegalAt_parallel (h : w.Alike s s') : s'.illegalAt e' m = s.illegalAt e m := by
  simp only [illegalAt, topMode_parallel p h, p.text]

theorem stalled?_parallel (h : w.Alike s s') : s'.stalled? e' m = s.stalled? e m := by
  cases h
  simp only [stalled?, p.text]

theorem agree_onMatch (h : w.Alike s s') (following : Nat) :
    Agree w.excused w.Alike (s.onMatch e m following) (s'.onMatch e' m following) := by
  have hread : w.Alike (s.keep (e.text.slice s.position m.index))
      (s'.keep (e'.text.slice s'.position m.index)) := by
    rw [p.text, position_alike h]
    exact alike_keep h _
  have hmarked {t t' : ScanState} (ht : w.Alike t t') :
      w.Alike { t with lastMatch := some (m.kind, m.index) }
        { t' with lastMatch := some (m.kind, m.index) } := by
    cases ht with
    | mk ht hr => exact .mk ht hr
  simp only [onMatch, stalled?_parallel p hread, p.mode]
  split
  · -- The scan stalls: a strict one stops, and is excused if the other one need not.
    obtain hsafe | ⟨hstrict, hexcused⟩ := p.safeMode
    · rw [hsafe]
      split
      · exact .ok (alike_stepOver p hread _)
      · exact .error _
    · rw [hstrict]
      exact .excused _ (hexcused _)
  · split
    · exact agree_onBegin p (hmarked hread) _ _
    · exact agree_onEnd p (hmarked hread)
    · rw [illegalAt_parallel p (hmarked hread)]
      obtain hignore | ⟨hminded, hexcused⟩ := p.ignoreIllegals
      · rw [hignore]
        split
        · exact .ok (alike_pass p (hmarked hread))
        · exact .error _
      · rw [hminded]
        exact .excused _ (hexcused _ _ _)

/-! Whole scans. -/

theorem isRunaway_parallel (h : w.Alike s s') (index : Nat) :
    s'.isRunaway e' index = s.isRunaway e index := by
  cases h
  simp only [isRunaway, p.text, p.maxIterations]

theorem agree_turn (h : w.Alike s s') :
    Agree w.excused (Option.Rel w.Alike) (s.turn e) (s'.turn e') := by
  cases h with
  | @mk tree relevance ht hr =>
    have hcounted : w.Alike { s with iterations := s.iterations + 1 }
        { s with tree, relevance, iterations := s.iterations + 1 } := .mk ht hr
    have hall : w.Alike { s with iterations := s.iterations + 1, firstRule := 0 }
        { s with tree, relevance, iterations := s.iterations + 1, firstRule := 0 } := .mk ht hr
    simp only [turn, topMode_parallel p hcounted, p.text]
    split
    · exact .error _
    · exact .ok .none
    · simp only [isRunaway_parallel p hcounted]
      split
      · exact .error _
      · exact (agree_onMatch p hall _).map fun t t' ht ↦ Option.Rel.some ht

theorem agree_turns (h : w.Alike s s') (fuel : Nat) :
    Agree w.excused w.Alike (turns e fuel s) (turns e' fuel s') := by
  induction fuel generalizing s s' with
  | zero =>
    cases h
    exact .error _
  | succ fuel ih =>
    refine (agree_turn p h).bind fun next next' hnext ↦ ?_
    cases hnext with
    | none => exact .ok h
    | some ht => exact ih ht

theorem agree_readRest (h : w.Alike s s') :
    Agree w.excused w.Alike (s.readRest e) (s'.readRest e') := by
  rw [readRest, readRest, p.text, position_alike h]
  exact agree_flush p (alike_keep h _)

theorem alike_reopen (h : w.Alike s s') : w.Alike (s.reopen e) (s'.reopen e') := by
  have hfold {b b' : TreeBuilder} (scopes : List String) (hb : w.tree b b') :
      w.tree (scopes.foldl (fun tree scope ↦ tree.openScope (e.grammar.aliasScope scope)) b)
        (scopes.foldl (fun tree scope ↦ tree.openScope (e'.grammar.aliasScope scope)) b') := by
    induction scopes generalizing b b' with
    | nil => exact hb
    | cons scope scopes ih => exact ih (p.openScope scope hb)
  cases h with
  | mk ht hr =>
    simp only [reopen, p.mode]
    exact .mk (hfold _ ht) hr

end

end ScanState

namespace ScanSetting

variable {w : Leeway} {e e' : ScanSetting}

/-- Parallel scans that go on from the same place come to outputs that are no further apart, or
stop for the same reason. -/
theorem Parallel.agree_run (p : e.Parallel w e') (c : Option Continuation) :
    Agree w.excused w.Outputs (e.run c) (e'.run c) := by
  have hstack : e'.startStack c = e.startStack c := by
    simp only [startStack, p.id]
  have hturns : ScanState.maxTurns e' = ScanState.maxTurns e := by
    rw [ScanState.maxTurns, p.maxIterations, p.text, ScanState.maxTurns]
  have hstart : w.Alike { stack := e.startStack c } { stack := e.startStack c } :=
    .mk p.empty p.zero
  have houtput {s s' : ScanState} (h : w.Alike s s') : w.Outputs (s.output e) (s'.output e') := by
    cases h with
    | mk ht hr =>
      refine ⟨⟨_, _, ht, rfl, rfl⟩, hr, ?_⟩
      simp only [ScanState.output, p.id]
  simp only [run, hstack, hturns, p.emitTokens, p.text]
  split
  · rename_i emission hemission
    exact .ok (houtput (.mk (p.emit emission hemission) p.zero))
  · refine (ScanState.agree_turns p (ScanState.alike_reopen p hstart) _).bind fun s s' hs ↦ ?_
    exact (ScanState.agree_readRest p hs).bind fun t t' ht ↦ .ok (houtput ht)

end ScanSetting

end SyntaxHighlight
