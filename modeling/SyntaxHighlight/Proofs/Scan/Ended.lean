import Mathlib
import SyntaxHighlight.Proofs.Scan.RoundTrip
import SyntaxHighlight.Proofs.Scan.Turn

/-!
What becomes of the text at the end of a mode. The end is added as the innermost mode wants it,
although it may be that of a mode around it; and a mode that starts there takes over what is in the
buffer.
-/
namespace SyntaxHighlight.ScanState

variable {e : ScanSetting} {s s' t : ScanState} {m : Rule.Match} {following n stop : Nat}
  {stack : List Frame}

def OwnEnds (e : ScanSetting) (s : ScanState) (m : Rule.Match) : Prop :=
  ∃ ending, (s.topMode e).ending = some ending ∧ ending.matchesAt e.text m.index = true

/-- The last of the modes that close at an end. -/
def lastClosed (e : ScanSetting) (stack : List Frame) (n : Nat) : CompiledMode :=
  e.grammar.mode ((stack[n - 1]?.map Frame.mode).getD CompiledGrammar.rootId)

/-- The state after an end that closes `n` modes of a stack: its text has been added, and no other
mode has been opened yet. -/
def EndsIn (e : ScanSetting) (m : Rule.Match) (stack : List Frame) (n : Nat)
    (s t : ScanState) : Prop :=
  ∃ u, ({ s.facing e m with stack } : ScanState).addEnd e m = .ok u ∧ t = closeModes e n u

def startNext (e : ScanSetting) (next : Option Nat) (groups : List (Option Span))
    (s : ScanState) : ScanState :=
  match next with
  | some next => s.openMode e next groups .empty
  | none => s

theorem EndsIn.stack_eq (h : EndsIn e m stack n s t) : t.stack = stack.drop n := by
  obtain ⟨u, hu, rfl⟩ := h
  rw [closeModes_stack, addEnd_stack hu]

theorem topMode_of_closedBy {closed : Option Nat} (hc : closedBy e m s.stack = (stack, closed)) :
    ({ s.facing e m with stack } : ScanState).topMode e = s.topMode e := by
  rw [topMode, topMode, topId_eq, topId_eq, map_mode_of_closedBy hc]

theorem turn_closes (hm : s.Finds e m following) (hkind : m.kind = .ends)
    (hs : s.stalled? e m = none) (hc : closedBy e m s.stack = (stack, some n))
    (h : s.turn e = .ok (some s')) :
    ∃ t, EndsIn e m stack n s t ∧
      s' = (startNext e (lastClosed e stack n).starts m.groups t).goOn e m
        (s.topMode e).returnEnd := by
  have hend := turn_ends hm h hkind hs
  rw [onEnd, facing_stack, hc] at hend
  obtain ⟨u, hu, hs'⟩ := bind_eq_ok.1 hend
  cases hs'
  refine ⟨closeModes e n u, ⟨u, hu, rfl⟩, ?_⟩
  rw [topMode_of_closedBy hc]
  rfl

theorem EndsIn.written_eq (hw : e.grammar.WordsInOrder) (hl : e.languages.KeepText)
    {closed : Option Nat} (hc : closedBy e m s.stack = (stack, closed))
    (hreturn : (s.topMode e).returnEnd = false) (h : EndsIn e m stack n s t) :
    t.written =
      s.written ++ e.text.slice s.position m.index ++ endText e (s.topMode e) m := by
  obtain ⟨u, hu, rfl⟩ := h
  have htop := topMode_of_closedBy (e := e) (m := m) hc
  have hkept : ({ s.facing e m with stack } : ScanState).written =
      s.written ++ e.text.slice s.position m.index := written_keep (s := s) _
  rw [written_closeModes, written_addEnd hw hl (htop ▸ hreturn) hu, htop, hkept]

theorem written_startNext {next : Option Nat} {groups : List (Option Span)}
    (h : ∀ id parts, next = some id → (e.grammar.mode id).beginTagging ≠ some (.parts parts)) :
    (startNext e next groups t).written = t.written := by
  cases next with
  | none => rfl
  | some id => exact written_openMode fun parts ↦ h id parts rfl

/-- An end that is not to be read again keeps its text: after it, the tree and the buffer have what
they had, and the text up to the end of the match. It is otherwise only where the innermost mode
takes its own end apart, which has not matched: then of the match there are just the parts that
happen to have taken part in it. -/
theorem end_keeps_text (hw : e.grammar.WordsInOrder) (hl : e.languages.KeepText)
    (hm : s.Finds e m following) (hspan : m.Within e.text s.position stop)
    (hkind : m.kind = .ends) (hs : s.stalled? e m = none)
    (hc : closedBy e m s.stack = (stack, some n)) (hreturn : (s.topMode e).returnEnd = false)
    (hparts : ∀ parts, (s.topMode e).endTagging = some (.parts parts) → OwnEnds e s m →
      Tiles m.groups parts m.index stop)
    (h : s.turn e = .ok (some s')) :
    ∃ t, EndsIn e m stack n s t ∧ t.stack = stack.drop n ∧
      s' = (startNext e (lastClosed e stack n).starts m.groups t).goOn e m false ∧
      s'.position = stop ∧
      ((∀ parts, (s.topMode e).endTagging = some (.parts parts) → OwnEnds e s m) →
        t.written = s.written ++ e.text.slice s.position stop) ∧
      (∀ parts, (s.topMode e).endTagging = some (.parts parts) → ¬ OwnEnds e s m →
        t.written = s.written ++ e.text.slice s.position m.index ++
          partsText e.text m.groups parts) ∧
      ((∀ id parts, (lastClosed e stack n).starts = some id →
          (e.grammar.mode id).beginTagging ≠ some (.parts parts)) →
        s'.written = t.written) := by
  obtain ⟨t, ht, hs'⟩ := turn_closes hm hkind hs hc h
  rw [hreturn] at hs'
  have hwritten := ht.written_eq hw hl hc hreturn
  refine ⟨t, ht, ht.stack_eq, hs', ?_, fun hown ↦ ?_, fun parts htagging _ ↦ ?_, fun hnext ↦ ?_⟩
  · have hlength := hspan.lexeme_length
    have hle := hspan.index_le
    rw [hs', goOn]
    simp only [Bool.false_eq_true, if_false]
    omega
  · -- Parts are taken from the end of the innermost mode, so they cover the match if it is that.
    have hlexeme : endText e (s.topMode e) m = e.text.slice m.index stop := by
      unfold endText
      split
      · rename_i parts htagging
        exact (hparts parts htagging (hown parts htagging)).partsText_eq _
      · exact hspan.lexeme_eq
    rw [hwritten, hlexeme, String.append_assoc,
      e.text.slice_append hspan.start_le hspan.index_le]
  · rw [hwritten, endText, htagging]
  · rw [hs']
    exact written_startNext hnext

theorem keepText_alone (g : Grammar) (text : String) : (g.alone text).languages.KeepText :=
  ⟨nofun, nofun⟩

/-- Brackets within a tag. They end with two letters that have scopes of their own, or with the
tag. -/
def bracketsInTag : Grammar where
  contains := [.inline
    { scope := some (.name "m")
      begin := some (.source "<")
      ending := some (.source ">")
      contains := [.inline
        { scope := some (.name "c")
          begin := some (.source "\\[")
          ending := some (.sequence ["a", "b"])
          endScope := some (.captures [(1, "x"), (2, "y")])
          endsWithParent := true }] }]

/-- The letters are kept when they end the brackets. -/
theorem bracketsInTag_keep_text : ∃ s s' t : ScanState,
    ScanSetting.Reached (bracketsInTag.alone "<[ab>d") none s ∧
      s.turn (bracketsInTag.alone "<[ab>d") = .ok (some s') ∧ s'.position = 4 ∧
      t.stack.map Frame.mode = [1, 0] ∧ s.written = "<[" ∧ t.written = "<[ab" ∧
      s'.written = t.written := by
  have hmode : ((bracketsInTag.alone "<[ab>d").grammar.looksOnward,
      ((bracketsInTag.alone "<[ab>d").grammar.mode 2).returnEnd,
      ((bracketsInTag.alone "<[ab>d").grammar.mode 2).endTagging,
      ((bracketsInTag.alone "<[ab>d").grammar.mode 2).starts,
      ((bracketsInTag.alone "<[ab>d").grammar.mode 2).ending.any fun ending ↦
        ending.matchesAt (.ofString "<[ab>d") 2) =
      (true, false, some (.parts [(1, some "x"), (2, some "y")]), none, true) := by
    cbv
  have hturns : (((bracketsInTag.alone "<[ab>d").start none).turn
      (bracketsInTag.alone "<[ab>d")).toOption.join.map (fun s ↦
        (s.turn (bracketsInTag.alone "<[ab>d")).toOption.join.map fun s ↦
          (s.stack, s.written, s.position,
            (s.turn (bracketsInTag.alone "<[ab>d")).toOption.join.isSome,
            ((s.topMode (bracketsInTag.alone "<[ab>d")).matcher.next s.firstRule
              (bracketsInTag.alone "<[ab>d").text s.position).toOption.join.map fun found ↦
                (found.1, s.stalled? (bracketsInTag.alone "<[ab>d") found.1,
                  closedBy (bracketsInTag.alone "<[ab>d") found.1 s.stack))) =
      some (some ([⟨2, .empty⟩, ⟨1, .empty⟩, ⟨0, .empty⟩], "<[", 2, true,
        some (⟨0, .ends, 2, [some (2, 4), some (2, 3), some (3, 4)]⟩, none,
          [⟨2, .empty⟩, ⟨1, .empty⟩, ⟨0, .empty⟩], some 1))) := by
    cbv
  have htext : (bracketsInTag.alone "<[ab>d").text = .ofString "<[ab>d" := rfl
  have hlanguages := keepText_alone bracketsInTag "<[ab>d"
  generalize bracketsInTag.alone "<[ab>d" = e at *
  simp only [Prod.mk.injEq] at hmode
  obtain ⟨honward, hreturn, htagging, hstarts, hends⟩ := hmode
  obtain ⟨s₁, hfirst, hrest⟩ := eq_ok_some hturns
  obtain ⟨s, hsecond, hvalues⟩ := eq_ok_some hrest
  simp only [Prod.mk.injEq] at hvalues
  obtain ⟨hstack, hwritten, hposition, hthird, hfound⟩ := hvalues
  obtain ⟨s', hturn⟩ := eq_ok_of_isSome hthird
  obtain ⟨⟨m, following⟩, hm, hfound⟩ := eq_ok_some hfound
  simp only [Prod.mk.injEq] at hfound
  obtain ⟨rfl, hstalled, hclosed⟩ := hfound
  have htop : s.topMode e = e.grammar.mode 2 := by
    rw [topMode, topId, hstack]
  have hspan : Rule.Match.Within ⟨0, .ends, 2, [some (2, 4), some (2, 3), some (3, 4)]⟩ e.text
      s.position 4 := by
    rw [htext, hposition]
    exact ⟨rfl, by decide, by decide, by decide⟩
  have hparts (parts : List (Nat × Option String))
      (hp : (s.topMode e).endTagging = some (.parts parts)) :
      Tiles [some (2, 4), some (2, 3), some (3, 4)] parts 2 4 := by
    rw [htop, htagging] at hp
    cases hp
    exact ⟨3, rfl, by decide, 4, rfl, by decide, rfl⟩
  have hown : OwnEnds e s ⟨0, .ends, 2, [some (2, 4), some (2, 3), some (3, 4)]⟩ := by
    rw [OwnEnds, htop, htext]
    exact (Option.any_eq_true _ _).1 hends
  obtain ⟨t, -, ht, -, hplace, hkeeps, -, hnext⟩ :=
    end_keeps_text (CompiledGrammar.wordsInOrder_of_looksOnward honward) hlanguages hm hspan rfl
      hstalled hclosed (htop ▸ hreturn) (fun parts hp _ ↦ hparts parts hp) hturn
  refine ⟨s, s', t, .turn (.turn .start hfirst) hsecond, hturn, hplace, ?_, hwritten, ?_, ?_⟩
  · rw [ht]
    rfl
  · rw [hkeeps fun _ _ ↦ hown, hwritten, htext, hposition]
    decide
  · refine hnext fun id parts hid ↦ ?_
    rw [show lastClosed e _ 1 = e.grammar.mode 2 from rfl, hstarts] at hid
    cases hid

/-- The end of the tag ends the brackets as well, and is lost. -/
example : ((bracketsInTag.alone "<[>d").run none).toOption.map
    (fun output ↦ output.tree.plainText) = some "<[d" := by
  cbv

/-- What waits in the buffer when a mode has ended. -/
def endBuffer (e : ScanSetting) (s : ScanState) (m : Rule.Match) : String :=
  let mode := s.topMode e
  if mode.endTagging.isSome then ""
  else if mode.skip then s.buffer ++ m.lexeme e.text
  else if mode.excludeEnd then m.lexeme e.text
  else ""

theorem addEnd_buffer (h : s.addEnd e m = .ok s') : s'.buffer = endBuffer e s m := by
  unfold endBuffer
  dsimp only
  unfold addEnd at h
  dsimp only at h
  split at h
  · rename_i htagging
    obtain ⟨t, ht, hs⟩ := bind_eq_ok.1 h
    cases hs
    have hflush := flush_buffer ht
    rw [htagging]
    exact hflush
  · rename_i htagging
    obtain ⟨t, ht, hs⟩ := bind_eq_ok.1 h
    cases hs
    rw [htagging, (steady_addParts ..).buffer]
    exact flush_buffer ht
  · rename_i htagging
    rw [htagging]
    split at h
    · rename_i hskip
      cases h
      simp [hskip, keep]
    · rename_i hskip
      obtain ⟨t, ht, hs⟩ := bind_eq_ok.1 h
      cases hs
      have hflush := flush_buffer ht
      split <;> simp_all

theorem closeModes_buffer : (closeModes e n s).buffer = s.buffer := by
  induction n generalizing s with
  | zero => rfl
  | succ n ih =>
    rw [closeModes, ih, closeMode]
    split <;> rfl

/-- What a mode that starts where another one has ended does to the text: nothing, unless its begin
is taken apart. Then the parts of the end that have the numbers of its own take the place of what
waits in the buffer, and no text is added or lost only where they are the same text. -/
theorem next_keeps_text (hw : e.grammar.WordsInOrder) (hm : s.Finds e m following)
    (hkind : m.kind = .ends) (hs : s.stalled? e m = none)
    (hc : closedBy e m s.stack = (stack, some n)) {next : Nat}
    (hnext : (lastClosed e stack n).starts = some next) (h : s.turn e = .ok (some s')) :
    ∃ t, EndsIn e m stack n s t ∧ t.buffer = endBuffer e (s.facing e m) m ∧
      s' = (t.openMode e next m.groups .empty).goOn e m (s.topMode e).returnEnd ∧
      ((∀ parts, (e.grammar.mode next).beginTagging ≠ some (.parts parts)) →
        s'.written = t.written) ∧
      ∀ parts, (e.grammar.mode next).beginTagging = some (.parts parts) →
        s'.written = t.tree.content ++ partsText e.text m.groups parts ∧
        (s'.written = t.written ↔
          partsText e.text m.groups parts = endBuffer e (s.facing e m) m) := by
  obtain ⟨t, ht, hs'⟩ := turn_closes hm hkind hs hc h
  rw [hnext] at hs'
  have hwritten : s'.written = (t.openMode e next m.groups .empty).written := by
    rw [hs']
    rfl
  have hbuffer : t.buffer = endBuffer e (s.facing e m) m := by
    obtain ⟨u, hu, rfl⟩ := ht
    rw [closeModes_buffer, addEnd_buffer hu, endBuffer, topMode_of_closedBy hc]
    rfl
  refine ⟨t, ht, hbuffer, hs', fun hno ↦ hwritten.trans (written_openMode hno),
    fun parts hparts ↦ ?_⟩
  have hparts : s'.written = t.tree.content ++ partsText e.text m.groups parts :=
    hwritten.trans (written_openMode_parts hw hparts)
  refine ⟨hparts, ?_⟩
  rw [hparts, written, hbuffer]
  exact String.append_right_inj _

/-- A tag, and behind it a mode that is to begin with two letters that have scopes of their own. -/
def tagThenLetters : Grammar where
  contains := [.inline
    { scope := some (.name "m")
      begin := some (.source "<")
      ending := some (.source "(>)")
      starts := some
        { scope := some (.name "s")
          begin := some (.sequence ["a", "b"])
          beginScope := some (.captures [(1, "x"), (2, "y")])
          ending := some (.source ";") } }]

/-- The group of the end is taken for the first letter, and its text is there twice. -/
theorem tagThenLetters_doubles : ∃ s s' t : ScanState,
    ScanSetting.Reached (tagThenLetters.alone "<>c;d") none s ∧
      s.turn (tagThenLetters.alone "<>c;d") = .ok (some s') ∧
      EndsIn (tagThenLetters.alone "<>c;d") ⟨0, .ends, 1, [some (1, 2), some (1, 2)]⟩ s.stack 1
        s t ∧
      s'.written = t.written ++ ">" ∧ s'.written ≠ t.written := by
  have hmodes : ((tagThenLetters.alone "<>c;d").grammar.looksOnward,
      ((tagThenLetters.alone "<>c;d").grammar.mode 1).endTagging,
      ((tagThenLetters.alone "<>c;d").grammar.mode 1).skip,
      ((tagThenLetters.alone "<>c;d").grammar.mode 1).excludeEnd,
      ((tagThenLetters.alone "<>c;d").grammar.mode 1).starts,
      ((tagThenLetters.alone "<>c;d").grammar.mode 2).beginTagging) =
      (true, none, false, false, some 2, some (.parts [(1, some "x"), (2, some "y")])) := by
    cbv
  have hturns : (((tagThenLetters.alone "<>c;d").start none).turn
      (tagThenLetters.alone "<>c;d")).toOption.join.map (fun s ↦
        (s.stack, (s.turn (tagThenLetters.alone "<>c;d")).toOption.join.isSome,
          ((s.topMode (tagThenLetters.alone "<>c;d")).matcher.next s.firstRule
            (tagThenLetters.alone "<>c;d").text s.position).toOption.join.map fun found ↦
              (found.1, s.stalled? (tagThenLetters.alone "<>c;d") found.1,
                closedBy (tagThenLetters.alone "<>c;d") found.1 s.stack))) =
      some ([⟨1, .empty⟩, ⟨0, .empty⟩], true,
        some (⟨0, .ends, 1, [some (1, 2), some (1, 2)]⟩, none,
          [⟨1, .empty⟩, ⟨0, .empty⟩], some 1)) := by
    cbv
  have htext : (tagThenLetters.alone "<>c;d").text = .ofString "<>c;d" := rfl
  generalize tagThenLetters.alone "<>c;d" = e at *
  simp only [Prod.mk.injEq] at hmodes
  obtain ⟨honward, htagging, hskip, hexclude, hstarts, hbegin⟩ := hmodes
  obtain ⟨s, hfirst, hvalues⟩ := eq_ok_some hturns
  simp only [Prod.mk.injEq] at hvalues
  obtain ⟨hstack, hsecond, hfound⟩ := hvalues
  obtain ⟨s', hturn⟩ := eq_ok_of_isSome hsecond
  obtain ⟨⟨m, following⟩, hm, hfound⟩ := eq_ok_some hfound
  simp only [Prod.mk.injEq] at hfound
  obtain ⟨rfl, hstalled, hclosed⟩ := hfound
  obtain ⟨t, ht, hbuffer, -, -, hparts⟩ :=
    next_keeps_text (CompiledGrammar.wordsInOrder_of_looksOnward honward) hm rfl hstalled hclosed
      hstarts hturn
  obtain ⟨hwritten, hsame⟩ := hparts _ hbegin
  have hempty : endBuffer e (s.facing e ⟨0, .ends, 1, [some (1, 2), some (1, 2)]⟩)
      ⟨0, .ends, 1, [some (1, 2), some (1, 2)]⟩ = "" := by
    have htop : (s.facing e ⟨0, .ends, 1, [some (1, 2), some (1, 2)]⟩).topMode e =
        e.grammar.mode 1 := by
      rw [topMode, topId, facing_stack, hstack]
    rw [endBuffer, htop]
    simp [htagging, hskip, hexclude]
  have hpart : partsText e.text [some (1, 2), some (1, 2)] [(1, some "x"), (2, some "y")] = ">" := by
    rw [htext]
    decide
  rw [hempty] at hbuffer hsame
  rw [hpart] at hwritten hsame
  have hdoubled : s'.written = t.written ++ ">" := by
    rw [hwritten, ScanState.written, hbuffer, String.append_empty]
  exact ⟨s, s', t, .turn .start hfirst, hturn, hstack ▸ ht, hdoubled,
    fun heq ↦ absurd (hsame.1 heq) (by decide)⟩

example : ((tagThenLetters.alone "<>c;d").run none).toOption.map
    (fun output ↦ output.tree.plainText) = some "<>>c;d" := by
  cbv

end SyntaxHighlight.ScanState
