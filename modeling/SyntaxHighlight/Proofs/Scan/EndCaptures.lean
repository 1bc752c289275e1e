import SyntaxHighlight.Proofs.Grammar.Matcher
import SyntaxHighlight.Proofs.Mode.Callback
import SyntaxHighlight.Proofs.Rule.Narrowed
import SyntaxHighlight.Proofs.Scan.Terminator
import SyntaxHighlight.Proofs.Scan.Turn

/-! What a match that ends a mode tells the callbacks of the open modes. Its groups are those of the
terminator of the innermost mode, so the ones of the end that matches come behind those of the ends
before it. -/
namespace SyntaxHighlight

open Regex Rule

namespace ScanState

variable {e : ScanSetting} {s s' : ScanState} {m : Rule.Match} {following : Nat}
  {stack inside outside : List Frame} {frame : Frame}

/-- The ends of some open modes, of those that have one. -/
def endsOf (e : ScanSetting) (frames : List Frame) : List Expr :=
  frames.filterMap fun frame ↦ (e.grammar.mode frame.mode).ending

/-- A mode leaves a match to the mode around it, as its own end does not match there. -/
structure PassesOn (e : ScanSetting) (m : Rule.Match) (frame : Frame) : Prop where
  endsWithParent : (e.grammar.mode frame.mode).endsWithParent = true
  ending : ∀ own, (e.grammar.mode frame.mode).ending = some own →
    own.matchesAt e.text m.index = false

theorem PassesOn.endsHere (h : PassesOn e m frame) : endsHere e m frame = (false, frame) := by
  have hending : ((e.grammar.mode frame.mode).ending.any
      fun ending ↦ ending.matchesAt e.text m.index) = false := by
    cases hown : (e.grammar.mode frame.mode).ending with
    | none => rfl
    | some own => exact h.ending own hown
  simp only [ScanState.endsHere, hending]
  rfl

/-- The first mode whose end matches is the first one that is asked, unless it is the outermost. -/
theorem closedBy_inside (hinside : ∀ f ∈ inside, PassesOn e m f) (houtside : outside ≠ []) :
    closedBy e m (inside ++ frame :: outside) =
      (inside ++ (closedBy e m (frame :: outside)).1,
        (closedBy e m (frame :: outside)).2.map (· + inside.length)) := by
  induction inside with
  | nil => simp
  | cons f inside ih =>
    have hf := hinside f List.mem_cons_self
    have hlength : 1 < (inside ++ frame :: outside).length := by
      have := List.length_pos_iff.2 houtside
      simp only [List.length_append, List.length_cons]
      omega
    rw [List.cons_append, closedBy, hf.endsHere]
    simp only [hf.endsWithParent, hlength, decide_true, Bool.and_self, if_true,
      ih fun f hf ↦ hinside f (List.mem_cons_of_mem _ hf), Option.map_map]
    rfl

theorem openEnds_eq_append {inner outer : List Expr} {own : Expr}
    (h : openEnds e stack = inner ++ own :: outer) :
    ∃ inside frame outside, stack = inside ++ frame :: outside ∧
      (e.grammar.mode frame.mode).ending = some own ∧ endsOf e inside = inner ∧
      ∀ f ∈ inside, (e.grammar.mode f.mode).endsWithParent = true := by
  induction stack generalizing inner with
  | nil => simp [openEnds] at h
  | cons frame stack ih =>
    rw [openEnds] at h
    have hfurther {later : List Expr}
        (hrest : (if (e.grammar.mode frame.mode).endsWithParent then openEnds e stack else []) =
          later ++ own :: outer) (hinner : endsOf e [frame] ++ later = inner) :
        ∃ inside frame' outside, frame :: stack = inside ++ frame' :: outside ∧
          (e.grammar.mode frame'.mode).ending = some own ∧ endsOf e inside = inner ∧
          ∀ f ∈ inside, (e.grammar.mode f.mode).endsWithParent = true := by
      split at hrest
      · rename_i hends
        obtain ⟨inside, frame', outside, rfl, hown, rfl, hinside⟩ := ih hrest
        refine ⟨frame :: inside, frame', outside, rfl, hown, ?_, fun f hf ↦ ?_⟩
        · rw [← hinner, endsOf, endsOf, endsOf, ← List.filterMap_append]
          rfl
        · obtain rfl | hf := List.mem_cons.1 hf
          · exact hends
          · exact hinside f hf
      · simp at hrest
    cases hending : (e.grammar.mode frame.mode).ending with
    | none =>
      rw [hending] at h
      exact hfurther h (by simp [endsOf, hending])
    | some first =>
      rw [hending] at h
      obtain ⟨rfl, hown⟩ | ⟨later, rfl, hrest⟩ := List.cons_eq_append_iff.1 h
      · cases hown
        exact ⟨[], frame, stack, rfl, hending, rfl, List.forall_mem_nil _⟩
      · exact hfurther hrest (by simp [endsOf, hending])

/-- What the callbacks are told when the end of a mode matches, within modes that pass the match on.
The groups are those of that end, behind as many as the ends further in have. -/
structure Tells (e : ScanSetting) (m : Rule.Match) (stack inside : List Frame) (frame : Frame)
    (outside : List Frame) (spans : List (Option Span)) : Prop where
  stack_eq : stack = inside ++ frame :: outside
  passesOn : ∀ f ∈ inside, PassesOn e m f
  own : ∃ own, (e.grammar.mode frame.mode).ending = some own ∧
    own.matchesAt e.text m.index = true ∧ own.matchAt? e.text m.index m.index = some spans
  group (n : Nat) : 0 < n → (matchData e m).group? (n + groupsOf (endsOf e inside)) =
    (MatchData.mk e.text spans).group? n
  ahead (n : Nat) : 0 < n → n ≤ groupsOf (endsOf e inside) → (matchData e m).group? n = none

section Ends

variable {g : Grammar} {scoring : KeywordScoring} {es : List Expr}

theorem exists_tells (hg : g.compile scoring = .ok e.grammar) (hm : s.Finds e m following)
    (hkind : m.kind = .ends)
    (hterminator : (s.topMode e).terminator = spliceOf (openEnds e s.stack))
    (hside : SideBySideFrom g.flags 0 (s.topMode e).matcher.rules es)
    (hends : Spliceable g.flags 0 (openEnds e s.stack))
    (hanchors : ∀ own ∈ openEnds e s.stack, .anchor .searchStart ∉ own.root.subterms) :
    ∃ inside frame outside spans, Tells e m s.stack inside frame outside spans := by
  have hr : Resumable.ofRules (s.topMode e).matcher.rules g.flags = .ok (s.topMode e).matcher :=
    Grammar.compile_ofRules hg hm
  obtain ⟨rule, a, searchStart, found, hrule, hrulekind, hcompile, hle, hmatch, hgroups⟩ :=
    Resumable.next_captures hr hside hm
  have hsource : rule.source = spliceOf (openEnds e s.stack) :=
    (Grammar.compile_source_of_ends hg _ (List.mem_of_getElem? hrule)
      (hrulekind.symm.trans hkind)).trans hterminator
  obtain ⟨a', ha, hspliced, hcount⟩ := hends.compile
  rw [hsource] at hcompile
  cases ha.symm.trans hcompile
  obtain ⟨inner, own, outer, spans, hsplit, hown, hinner⟩ := hspliced.exists_first hmatch
  rw [hsplit] at hspliced hcount
  obtain ⟨found', hfound, hbehind, hahead⟩ := hspliced.matchAt?_first hcount hinner hown
  cases hfound.symm.trans hmatch
  obtain ⟨inside, frame, outside, hstack, hending, rfl, hinside⟩ := openEnds_eq_append hsplit
  -- Where the search began makes no difference to the ends.
  have hhere (b : Expr) (hb : b ∈ openEnds e s.stack) :
      b.matchAt? e.text searchStart m.index = b.matchAt? e.text m.index m.index := by
    obtain ⟨_, hsource⟩ := hends.separable b hb
    exact Expr.matchAt?_searchStart hsource.isPlain (hanchors b hb) _ _ _ _
  refine ⟨inside, frame, outside, spans, hstack, fun f hf ↦ ⟨hinside f hf, fun b hb ↦ ?_⟩,
    ⟨own, hending, ?_⟩, fun n hn ↦ ?_, fun n hn hbefore ↦ ?_⟩
  · have hmem : b ∈ endsOf e inside := List.mem_filterMap.2 ⟨f, hf, hb⟩
    refine matchesAt_eq_false fun _ ↦ ?_
    rw [← hhere b (hsplit ▸ List.mem_append_left _ hmem)]
    exact hinner b hmem
  · rw [hhere own (hsplit ▸ List.mem_append_right _ List.mem_cons_self)] at hown
    exact ⟨matchesAt_of_matchAt? hle hown, hown⟩
  · exact (hgroups _).trans (hbehind n hn)
  · exact (hgroups n).trans (hahead n hn hbefore)

end Ends

section Notes

/-- What the first group of a match is for a callback. -/
def firstGroup (e : ScanSetting) (groups : List (Option Span)) : String :=
  ((MatchData.mk e.text groups).get? 1).getD ""

variable {id : Nat}

theorem askBegin_notes (h : (e.grammar.mode id).EndsAsItBegan) (hr : ¬ Rejects e id m) :
    (askBegin e id m).2.get? Mode.openedKey = some (firstGroup e m.groups) := by
  have hcallbacks : (e.grammar.mode id).onBegin.toList = [[.store Mode.openedKey 1]] := by
    rw [h.onBegin]
    rfl
  rw [Rejects, Bool.not_eq_true] at hr
  rw [askBegin, hcallbacks] at hr ⊢
  obtain ⟨notes, hnotes⟩ := askAll_append hr
  rw [hnotes]
  exact Dictionary.get?_insert _ _ _

/-- The end of a mode that ends as it began holds if it matches, and its first group has matched
what is noted. What is noted stays. -/
theorem endsHere_of_endsAsItBegan (h : (e.grammar.mode frame.mode).EndsAsItBegan) :
    endsHere e m frame =
      (((e.grammar.mode frame.mode).ending.any fun ending ↦ ending.matchesAt e.text m.index) &&
        frame.notes.get? Mode.openedKey == some (firstGroup e m.groups), frame) := by
  simp only [endsHere, h.onEnd]
  split
  · rename_i hmatches
    simp [hmatches, Callback.run, Action.ignoreUnlessRepeated, matchData, firstGroup, bne]
  · rename_i hmatches
    rw [Bool.eq_false_of_not_eq_true hmatches]
    rfl

theorem mem_of_mem_closedBy (h : (e.grammar.mode frame.mode).EndsAsItBegan)
    (hmem : frame ∈ (closedBy e m stack).1) : frame ∈ stack := by
  induction stack with
  | nil => cases hmem
  | cons top outer ih =>
    have htop (hframe : frame = (endsHere e m top).2) : frame = top := by
      have hmode : frame.mode = top.mode := by rw [hframe, endsHere_mode]
      rw [hframe, endsHere_of_endsAsItBegan (hmode ▸ h)]
    simp only [closedBy] at hmem
    split at hmem
    · exact List.mem_cons.2 ((List.mem_cons.1 hmem).imp_left htop)
    · split at hmem
      · exact List.mem_cons.2 ((List.mem_cons.1 hmem).imp htop ih)
      · exact List.mem_cons.2 ((List.mem_cons.1 hmem).imp_left htop)

/-- What a mode that ends as it began has noted is what the first group of its begin has matched, in
a scan with the grammar. A mode that did not begin by a match has noted nothing. -/
def Remembers (loaded : LoadedGrammar) (frame : Frame) : Prop :=
  frame.notes.get? Mode.openedKey = none ∨
    ∃ (e : ScanSetting) (c : Option Continuation) (s : ScanState) (m : Rule.Match)
      (following : Nat),
      e.loaded = loaded ∧ ScanSetting.Resumes loaded c ∧ ScanSetting.Reached e c s ∧
      s.Finds e m following ∧ m.kind = .begins frame.mode ∧ ¬ Rejects e frame.mode m ∧
      frame.notes.get? Mode.openedKey = some (firstGroup e m.groups)

/-- Each of some open modes remembers its begin if it ends as it began. -/
def Remembered (loaded : LoadedGrammar) (stack : List Frame) : Prop :=
  ∀ frame ∈ stack, (loaded.grammar.mode frame.mode).EndsAsItBegan → Remembers loaded frame

variable {c : Option Continuation}

theorem turn_remembered (hc : ScanSetting.Resumes e.loaded c) (hs : ScanSetting.Reached e c s)
    (hstack : Remembered e.loaded s.stack) (h : s.turn e = .ok (some s')) :
    Remembered e.loaded s'.stack := by
  obtain ⟨m, following, hm, -⟩ := turn_eq_some h
  have hm : s.Finds e m following := hm
  cases hkind : m.kind with
  | begins id =>
    have hstep := turn_begins hm h hkind
    by_cases hr : Rejects e id m
    · rw [hstep.stack_of_rejects hr]
      exact hstack
    · rw [hstep.stack_of_not_rejects hr]
      intro frame hframe hmode
      obtain rfl | hframe := List.mem_cons.1 hframe
      · exact .inr ⟨e, c, s, m, following, rfl, hc, hs, hm, hkind, hr, askBegin_notes hmode hr⟩
      · exact hstack frame hframe hmode
  | ends =>
    cases hstalled : s.stalled? e m with
    | some opened =>
      rw [(turn_stalled hm h hstalled).1]
      exact hstack
    | none =>
      have hasked {stack : List Frame} {closed : Option Nat}
          (hclosed : closedBy e m s.stack = (stack, closed)) : Remembered e.loaded stack := by
        intro frame hframe hmode
        refine hstack frame (mem_of_mem_closedBy (m := m) hmode ?_) hmode
        rw [hclosed]
        exact hframe
      have hstep := onEnd_stack hkind (turn_ends hm h hkind hstalled)
      rw [facing_stack] at hstep
      generalize s'.stack = stack' at hstep
      cases hstep with
      | same => exact hstack
      | opens _ _ hbegins => cases hkind.symm.trans hbegins
      | stays _ hclosed => exact hasked hclosed
      | closes _ hclosed =>
        intro frame hframe hmode
        obtain hframe | hframe := List.mem_append.1 hframe
        · obtain ⟨next, -, rfl⟩ := Option.map_eq_some_iff.1 (Option.mem_toList.1 hframe)
          exact .inl rfl
        · exact hasked hclosed frame (List.mem_of_mem_drop hframe) hmode
  | illegal =>
    rw [turn_illegal hm h hkind, pass_stack]
    exact hstack

end Notes

end ScanState

namespace ScanSetting

open ScanState

variable {e : ScanSetting} {c : Option Continuation}

theorem Reached.remembered_of {s : ScanState} (hc : Resumes e.loaded c)
    (hstart : Remembered e.loaded (e.startStack c)) (hs : Reached e c s) :
    Remembered e.loaded s.stack := by
  induction hs with
  | start => exact hstart
  | turn hs hturn ih => exact turn_remembered hc hs ih hturn

theorem Reached.remembered {s : ScanState} (hc : Resumes e.loaded c) (hs : Reached e c s) :
    Remembered e.loaded s.stack := by
  refine hs.remembered_of hc (hc.startStack_of_reached ?_ (fun f c hf hc hstart s hs ↦ ?_) rfl)
  · intro frame hframe _
    obtain rfl := List.mem_singleton.1 hframe
    exact .inl rfl
  · rw [← hf] at hc hstart ⊢
    exact hs.remembered_of hc hstart

end ScanSetting

namespace ScanState

variable {e : ScanSetting} {s : ScanState} {m : Rule.Match} {following : Nat}
  {c : Option Continuation} {g : Grammar} {scoring : KeywordScoring} {es : List Expr}

/-- What becomes of a mode that ends as it began when its end matches, within modes that pass the
match on: it is asked whether the first of all groups, which is its own only if the ends further in
have none, repeats what its begin has matched. -/
structure Repeats (e : ScanSetting) (m : Rule.Match) (inside : List Frame) (frame : Frame)
    (outside : List Frame) (spans : List (Option Span)) : Prop where
  remembers : Remembers e.loaded frame
  holds : (endsHere e m frame).1 = true ↔ frame.notes.get? Mode.openedKey =
    some (if groupsOf (endsOf e inside) = 0 then firstGroup e spans else "")
  closes : outside ≠ [] → (endsHere e m frame).1 = true →
    (closedBy e m (inside ++ frame :: outside)).2 =
      some (closing e (frame :: outside) + inside.length)

theorem Tells.firstGroup_eq {stack inside outside : List Frame} {frame : Frame}
    {spans : List (Option Span)} (h : Tells e m stack inside frame outside spans) :
    firstGroup e m.groups =
      if groupsOf (endsOf e inside) = 0 then firstGroup e spans else "" := by
  split
  · rename_i hzero
    have hgroup := h.group 1 Nat.one_pos
    rw [hzero, Nat.add_zero, matchData] at hgroup
    rw [firstGroup, firstGroup, MatchData.get?, MatchData.get?, hgroup]
  · have hgroup := h.ahead 1 Nat.one_pos (by omega)
    rw [matchData] at hgroup
    rw [firstGroup, MatchData.get?, hgroup]
    rfl

theorem Tells.repeats {stack inside outside : List Frame} {frame : Frame}
    {spans : List (Option Span)} (h : Tells e m stack inside frame outside spans)
    (hmode : (e.grammar.mode frame.mode).EndsAsItBegan) (hremembers : Remembers e.loaded frame) :
    Repeats e m inside frame outside spans := by
  obtain ⟨own, hown, hmatches, -⟩ := h.own
  have hends := endsHere_of_endsAsItBegan (m := m) hmode
  rw [hown, Option.any_some, hmatches, Bool.true_and, h.firstGroup_eq] at hends
  refine ⟨hremembers, ?_, fun houtside hholds ↦ ?_⟩
  · rw [hends, beq_iff_eq]
  · have hframe : (endsHere e m frame).2 = frame := by rw [hends]
    rw [closedBy_inside h.passesOn houtside, closedBy]
    simp only [hholds, if_true, hframe]
    rfl

/-- When an end matches, the callbacks of the open modes are told the groups of the first end that
matches there, from the innermost mode outwards, behind as many groups as the ends before it have.
The mode of that end is asked first. So it sees the groups of its own end just if those before it
have none, and a mode that ends as it began may not be closed by what it began with. -/
theorem end_tells_groups (hg : g.compile scoring = .ok e.grammar)
    (hplaces : g.PlacesEach scoring e.grammar) (hc : ScanSetting.Resumes e.loaded c)
    (hs : ScanSetting.Reached e c s) (hrooted : Rooted s.stack) (hm : s.Finds e m following)
    (hkind : m.kind = .ends)
    (hside : SideBySideFrom g.flags 0 (s.topMode e).matcher.rules es)
    (hends : Spliceable g.flags 0 (openEnds e s.stack))
    (hanchors : ∀ own ∈ openEnds e s.stack, .anchor .searchStart ∉ own.root.subterms) :
    ∃ inside frame outside spans, Tells e m s.stack inside frame outside spans ∧
      (outside ≠ [] → closedBy e m s.stack =
        (inside ++ (closedBy e m (frame :: outside)).1,
          (closedBy e m (frame :: outside)).2.map (· + inside.length))) ∧
      ((e.grammar.mode frame.mode).EndsAsItBegan → Repeats e m inside frame outside spans) := by
  have hterminator := hs.terminator_eq hg hplaces hc hrooted
  obtain ⟨inside, frame, outside, spans, htells⟩ :=
    exists_tells hg hm hkind hterminator hside hends hanchors
  refine ⟨inside, frame, outside, spans, htells, fun houtside ↦ ?_, fun hmode ↦ ?_⟩
  · rw [htells.stack_eq]
    exact closedBy_inside htells.passesOn houtside
  · refine htells.repeats hmode (hs.remembered hc frame ?_ hmode)
    rw [htells.stack_eq]
    exact List.mem_append_right _ List.mem_cons_self

/-- A text that ends with the letter with which it began, and brackets in it that end with it. -/
def lettered (inner : String) : Grammar where
  contains := [.inline (Mode.endsAsItBegan
    { begin := some (.source "<(a|b)")
      ending := some (.source "(a|b)")
      contains := [.inline
        { begin := some (.source "\\["), ending := some (.source inner),
          endsWithParent := true }] })]

/-- Behind its begin and that of the brackets, the letter is found as an end. -/
theorem lettered_turns : ((((lettered "\\]").alone "<a[a").start none).turn
      ((lettered "\\]").alone "<a[a")).toOption.join.map (fun s ↦
        (s.turn ((lettered "\\]").alone "<a[a")).toOption.join.map fun t ↦ (t.stack,
          ((t.topMode ((lettered "\\]").alone "<a[a")).matcher.next t.firstRule
            ((lettered "\\]").alone "<a[a").text t.position).toOption.join.map
              fun found ↦ (found.1.kind, found.1.index))) =
    some (some ([⟨2, .empty⟩, ⟨1, Dictionary.empty.insert Mode.openedKey "a"⟩, ⟨0, .empty⟩],
      some (.ends, 3))) := by
  cbv

/-- Both ends may stand one after another. -/
theorem lettered_spliceable : Spliceable {} 0 [ownExpr "\\]", ownExpr "(a|b)"] ∧
    ∀ own ∈ [ownExpr "\\]", ownExpr "(a|b)"], .anchor .searchStart ∉ own.root.subterms := by
  have hbracket : Separable {} 0 "\\]" (ownExpr "\\]") :=
    separable_of_values [] (by cbv) (by cbv) (by cbv) (List.forall_mem_nil _)
  have hletter : Separable {} (0 + (ownExpr "\\]").groupCount) "(a|b)" (ownExpr "(a|b)") :=
    separable_of_values [] (by cbv) (by cbv) (by cbv) (List.forall_mem_nil _)
  have hbracketSource : (ownExpr "\\]").source = "\\]" := by cbv
  have hletterSource : (ownExpr "(a|b)").source = "(a|b)" := by cbv
  have hsplice : Spliceable {} 0 [ownExpr "\\]", ownExpr "(a|b)"] := by
    refine .more ?_ (.inl rfl) ?_ (.last ?_ (.inr ?_) ?_)
    · rw [hbracketSource]
      exact hbracket
    · rw [hbracketSource]
      exact not_setsOptions (by decide)
    · rw [hletterSource]
      exact hletter
    · rw [hletterSource]
      cbv
    · rw [hletterSource]
      decide
  have hanchors : [ownExpr "\\]", ownExpr "(a|b)"].any
      (fun own ↦ decide (.anchor .searchStart ∈ own.root.subterms)) = false := by
    cbv
  exact ⟨hsplice, fun own hown ↦ of_decide_eq_false (Bool.eq_false_of_not_eq_true
    (List.any_eq_false.1 hanchors own hown))⟩

/-- The modes of the brackets and of the text, as compiled. -/
theorem lettered_modes :
    (let mode := ((lettered "\\]").alone "<a[a").grammar.mode
    ((mode 2).matcher.rules.map Rule.source, (mode 2).ending, (mode 2).endsWithParent,
      (mode 1).ending, (mode 1).endsWithParent, (mode 1).onBegin, (mode 1).onEnd)) =
    (["\\]|(a|b)"], some (ownExpr "\\]"), true, some (ownExpr "(a|b)"), false,
      some [.store Mode.openedKey 1], some [.ignoreUnlessRepeated Mode.openedKey 1]) := by
  cbv

/-- At the second letter the end of the brackets does not match, and that of the text does. -/
theorem lettered_ends : (ownExpr "\\]").groupCount = 0 ∧
    (ownExpr "\\]").matchesAt (.ofString "<a[a") 3 = false ∧
    (ownExpr "(a|b)").matchAt? (.ofString "<a[a") 3 3 = some [some (3, 4), some (3, 4)] := by
  cbv

theorem lettered_sideBySide : SideBySideFrom (lettered "\\]").flags 0
    ((((lettered "\\]").alone "<a[a").grammar.mode 2).matcher.rules) [ownExpr "\\]|(a|b)"] := by
  have hrules := (Prod.mk.inj lettered_modes).1
  intro k _
  rw [List.map_drop, hrules]
  match k with
  | 0 =>
    exact .cons (separable_of_values [] (by cbv) (by cbv) (by cbv) (List.forall_mem_nil _))
      (.inl rfl) .nil
  | k + 1 =>
    simp only [List.drop_succ_cons, List.drop_nil]
    exact .nil

theorem lettered_placesEach :
    (lettered "\\]").PlacesEach default ((lettered "\\]").alone "<a[a").grammar ∧
    (lettered "\\]").compile default = .ok ((lettered "\\]").alone "<a[a").grammar := by
  have hplaced : ((lettered "\\]").arena default).toOption.map
      (fun a ↦ (a.crowded, a.selves)) = some ([], []) := by
    cbv
  obtain ⟨a, ha, hvalues⟩ := eq_ok_of_map hplaced
  obtain ⟨hcrowded, hselves⟩ := Prod.mk.inj hvalues
  exact ⟨⟨List.forall_mem_nil _, a, ha, hcrowded, by simp [hselves]⟩,
    Grammar.compile_alone (by rw [Grammar.compile, ha]; rfl) _⟩

/-- Where the end of the brackets has no groups, the letter closes both. -/
theorem lettered_closes : ∃ (s : ScanState) (m : Rule.Match) (following : Nat),
    ScanSetting.Reached ((lettered "\\]").alone "<a[a") none s ∧
      s.stack.map Frame.mode = [2, 1, 0] ∧ s.Finds ((lettered "\\]").alone "<a[a") m following ∧
      (closedBy ((lettered "\\]").alone "<a[a") m s.stack).2 = some 2 := by
  obtain ⟨hgroupless, hbracketFails, hletterMatches⟩ := lettered_ends
  obtain ⟨hplaces, hg⟩ := lettered_placesEach
  have hspliceable := lettered_spliceable
  have hmodes := lettered_modes
  have hside := lettered_sideBySide
  have hturns := lettered_turns
  have htext : ((lettered "\\]").alone "<a[a").text = .ofString "<a[a" := rfl
  generalize (lettered "\\]").alone "<a[a" = e at *
  generalize ownExpr "\\]" = bracket at *
  generalize ownExpr "(a|b)" = letter at *
  simp only [Prod.mk.injEq] at hmodes
  obtain ⟨-, hbrackets, hwith, hletter, hwithout, honBegin, honEnd⟩ := hmodes
  obtain ⟨s₁, hfirst, hrest⟩ := eq_ok_some hturns
  obtain ⟨s, hsecond, hvalues⟩ := eq_ok_some hrest
  obtain ⟨hstack, hfound⟩ := Prod.mk.inj hvalues
  obtain ⟨⟨m, following⟩, hm, hkind⟩ := eq_ok_some hfound
  obtain ⟨hkind, hindex⟩ := Prod.mk.inj hkind
  have hs : ScanSetting.Reached e none s := .turn (.turn .start hfirst) hsecond
  have htop : s.topMode e = e.grammar.mode 2 := by
    rw [topMode, topId, hstack]
  have hopen : openEnds e s.stack = [bracket, letter] := by
    simp [hstack, openEnds, hbrackets, hwith, hletter, hwithout]
  have hrooted : Rooted s.stack := by
    rw [hstack]
    rfl
  obtain ⟨inside, frame, outside, spans, htells, -, hrepeats⟩ :=
    end_tells_groups hg hplaces .fresh hs hrooted hm hkind (htop ▸ hside)
      (hopen ▸ hspliceable.1) (hopen ▸ hspliceable.2)
  have hsplit := htells.stack_eq
  rw [hstack] at hsplit
  refine ⟨s, m, following, hs, by rw [hstack]; rfl, hm, ?_⟩
  obtain ⟨own, hown, hmatches, hspans⟩ := htells.own
  rw [hindex, htext] at hmatches hspans
  obtain _ | ⟨f, _ | ⟨f', inside⟩⟩ := inside
  · obtain ⟨rfl, -⟩ := List.cons.inj hsplit
    obtain rfl := Option.some.inj (hown.symm.trans hbrackets)
    cases hbracketFails.symm.trans hmatches
  · obtain ⟨rfl, hrest⟩ := List.cons.inj hsplit
    obtain ⟨rfl, rfl⟩ := List.cons.inj hrest
    obtain rfl := Option.some.inj (hown.symm.trans hletter)
    obtain rfl := Option.some.inj (hspans.symm.trans hletterMatches)
    obtain ⟨-, hholds, hcloses⟩ := hrepeats ⟨honBegin, honEnd⟩
    have hnogroups : groupsOf (endsOf e [⟨2, .empty⟩]) = 0 := by
      simp [endsOf, groupsOf, hbrackets, hgroupless]
    rw [hnogroups, if_pos rfl, firstGroup, htext] at hholds
    have hclosing : closing e
        [⟨1, Dictionary.empty.insert Mode.openedKey "a"⟩, ⟨0, .empty⟩] = 1 := by
      simp [closing]
    rw [hstack]
    have h := hcloses (by simp) (hholds.2 (Dictionary.get?_insert _ _ _))
    rwa [hclosing] at h
  · obtain ⟨-, hrest⟩ := List.cons.inj hsplit
    obtain ⟨rfl, -⟩ := List.cons.inj hrest
    have hends := (htells.passesOn _ (List.mem_cons_of_mem _ List.mem_cons_self)).endsWithParent
    cases hwithout.symm.trans hends

/-- With a group in the end of the brackets, the group of the letter is the second one, and the mode
around is told that its own took no part. -/
example : ((((lettered "(\\])").alone "<a[a").start none).turn
      ((lettered "(\\])").alone "<a[a")).toOption.join.bind (fun s ↦
        (s.turn ((lettered "(\\])").alone "<a[a")).toOption.join.map fun t ↦
          ((t.topMode ((lettered "(\\])").alone "<a[a")).matcher.next t.firstRule
            ((lettered "(\\])").alone "<a[a").text t.position).toOption.join.map
              fun found ↦ (found.1.kind, found.1.groups)) =
    some (some (.ends, [some (3, 4), none, some (3, 4)])) := by
  cbv

end ScanState

end SyntaxHighlight
