import SyntaxHighlight.Proofs.Grammar.Ends
import SyntaxHighlight.Proofs.Rule.Splice
import SyntaxHighlight.Proofs.Scan.Lockstep

/-! What ends the innermost of the open modes. Each of them was placed in the one around it, so the
ends of those that it may end with are found one after another in its terminator. -/
namespace SyntaxHighlight

open Regex Rule

/-- Each of the open modes may be open in the one around it. -/
def Ledger.Nests (x : Ledger) (cg : CompiledGrammar) (stack : List Frame) : Prop :=
  (stack.map Frame.mode).IsChain fun inner outer ↦ x.Fits cg (cg.mode outer).terminator inner

namespace ScanState

variable {e : ScanSetting} {x : Ledger} {m : Rule.Match} {stack stack' : List Frame}

theorem StackStep.nests (h : StackStep e m stack stack')
    (hs : ∀ i, x.Keeps i (e.grammar.mode i)) (hcrowded : x.arena.crowded = [])
    (hselves : ∀ i ∈ x.arena.selves, e.grammar.EndsAlone i)
    (hbegins : ∀ id, m.kind = .begins id → ∀ top outer, stack = top :: outer →
      id ∈ (e.grammar.mode top.mode).contains)
    (hnests : x.Nests e.grammar stack) : x.Nests e.grammar stack' := by
  cases h with
  | same => exact hnests
  | opens stack notes hm =>
    cases stack with
    | nil => exact .singleton _
    | cons top outer =>
      exact .cons_cons
        (Ledger.fits_of_contains hs hcrowded hselves (hbegins _ hm top outer rfl)) hnests
  | stays hm hc =>
    rw [Ledger.Nests, map_mode_of_closedBy hc]
    exact hnests
  | @closes _ after n hm hc =>
    have hpos := closedBy_pos hc
    rw [Ledger.Nests, ← map_mode_of_closedBy hc] at hnests
    have hdrop (k : Nat) : x.Nests e.grammar (after.drop k) := by
      rw [Ledger.Nests, List.map_drop]
      exact hnests.drop k
    cases hstarts : (e.grammar.mode
        ((after[n - 1]?.map Frame.mode).getD CompiledGrammar.rootId)).starts with
    | none => exact hdrop n
    | some next =>
      cases houter : after.drop n with
      | nil => exact .singleton _
      | cons top outer =>
        have hlt : n - 1 < after.length := by
          have hlength := congrArg List.length houter
          simp only [List.length_drop, List.length_cons] at hlength
          omega
        -- The mode that comes next takes the place of the last one that closes.
        have hlast := hdrop (n - 1)
        rw [List.drop_eq_getElem_cons hlt, Nat.sub_add_cancel hpos, houter] at hlast
        rw [List.getElem?_eq_getElem hlt] at hstarts
        exact .cons_cons (hlast.rel.next hs hcrowded hstarts) hlast.of_cons

/-- The ends that end the innermost of some open modes: its own, and those of the modes around it
that it ends with. -/
def openEnds (e : ScanSetting) : List Frame → List Expr
  | [] => []
  | frame :: outer =>
    (e.grammar.mode frame.mode).ending.toList ++
      if (e.grammar.mode frame.mode).endsWithParent then openEnds e outer else []

theorem endedBy_spliceOf (own : Option Expr) {es : List Expr} (hes : ∀ a ∈ es, a.source ≠ "") :
    endedBy (own.map Expr.source) (spliceOf es) = spliceOf (own.toList ++ es) := by
  unfold endedBy
  by_cases hnil : es = []
  · subst hnil
    cases own <;> rfl
  · have hne : spliceOf es ≠ "" := mt (spliceOf_eq_empty hes).1 hnil
    rw [if_neg (by simpa using hne)]
    cases own with
    | none => rfl
    | some own =>
      rw [← String.toList_inj]
      simp [Pattern.concat, String.join, spliceOf_cons own hnil]

theorem source_ne_empty_of_openEnds {g : Grammar} {scoring : KeywordScoring}
    (hg : g.compile scoring = .ok e.grammar) (stack : List Frame) :
    ∀ own ∈ openEnds e stack, own.source ≠ "" := by
  induction stack with
  | nil => exact nofun
  | cons frame outer ih =>
    intro own hown
    rw [openEnds] at hown
    obtain hown | hown := List.mem_append.1 hown
    · exact Grammar.compile_ending_ne_empty hg _ (Option.mem_toList.1 hown)
    · split at hown
      · exact ih own hown
      · cases hown

theorem terminator_eq_own {g : Grammar} {scoring : KeywordScoring}
    (hg : g.compile scoring = .ok e.grammar) {i : Nat}
    (hends : (e.grammar.mode i).endsWithParent = false) :
    (e.grammar.mode i).terminator = spliceOf ((e.grammar.mode i).ending.toList ++ []) := by
  have hnone : ∀ a ∈ ([] : List Expr), a.source ≠ "" := fun _ h ↦ nomatch h
  rw [Grammar.compile_terminator_own hg i hends, ← endedBy_spliceOf _ hnone]
  rfl

/-- The innermost of the open modes is searched for the ends that end it, the first of which is its
own. -/
theorem terminator_eq_spliceOf {g : Grammar} {scoring : KeywordScoring}
    (hleaves : ∀ x ∈ g.extensions, x.Leaves Mode.endsWithParent)
    (hg : g.compile scoring = .ok e.grammar) (hs : ∀ i, x.Keeps i (e.grammar.mode i))
    {frame : Frame} {outer : List Frame} (hrooted : Rooted (frame :: outer))
    (hnests : x.Nests e.grammar (frame :: outer)) :
    (e.grammar.mode frame.mode).terminator = spliceOf (openEnds e (frame :: outer)) := by
  induction outer generalizing frame with
  | nil =>
    have hroot : e.grammar.mode frame.mode = e.grammar.root :=
      congrArg e.grammar.mode (rooted_singleton hrooted)
    have hends := Grammar.compile_root_endsWithParent hleaves hg
    rw [← hroot] at hends
    rw [openEnds, hends]
    exact terminator_eq_own hg hends
  | cons top outer ih =>
    have hsources := source_ne_empty_of_openEnds hg (top :: outer)
    have hfits := hnests.rel
    have houter := ih (hrooted.drop (n := 1) (by simp)) hnests.of_cons
    rw [openEnds]
    split
    · rename_i hends
      obtain hunder | halone := hfits
      · rw [hunder.terminator_eq hs hends, houter, endedBy_spliceOf _ hsources]
      · exact absurd hends (by simp [halone frame.mode .here])
    · rename_i hends
      exact terminator_eq_own hg (Bool.eq_false_of_not_eq_true hends)

end ScanState

namespace ScanSetting

open ScanState

variable {e : ScanSetting} {c : Option Continuation} {g : Grammar} {scoring : KeywordScoring}

theorem keeps_nests {x : Ledger} (hg : g.compile scoring = .ok e.grammar)
    (hs : ∀ i, x.Keeps i (e.grammar.mode i)) (hcrowded : x.arena.crowded = [])
    (hselves : ∀ i ∈ x.arena.selves, e.grammar.EndsAlone i) :
    e.Keeps (x.Nests e.grammar) := by
  intro s s' hnests h
  obtain ⟨m, following, hm, hstep⟩ := turn_stack h
  refine hstep.nests hs hcrowded hselves (fun id hkind top outer hstack ↦ ?_) hnests
  obtain ⟨rule, hrule, hk⟩ := Resumable.next_begins hm hkind
  rw [topMode, topId, hstack] at hrule
  exact Grammar.compile_begins_mem hg _ hrule hk

/-- Whatever a scan goes on from, the innermost mode is searched for the ends of the modes that are
open. -/
theorem Reached.terminator_eq {s : ScanState} (hg : g.compile scoring = .ok e.grammar)
    (hplaces : g.PlacesEach scoring e.grammar) (hc : Resumes e.loaded c) (hs : Reached e c s)
    (hrooted : Rooted s.stack) : (s.topMode e).terminator = spliceOf (openEnds e s.stack) := by
  obtain ⟨hleaves, a, ha, hcrowded, hselves⟩ := hplaces
  obtain ⟨x, hx, hkeeps⟩ := Grammar.compile_keeps hleaves hg
  cases ha.symm.trans hx
  have hstart : x.Nests e.grammar (e.startStack c) := by
    refine hc.startStack (.singleton _) (fun f hf ↦ ?_) rfl
    have hgrammar : f.grammar = e.grammar := congrArg LoadedGrammar.grammar hf
    rw [← hgrammar] at hg hkeeps hselves ⊢
    exact keeps_nests hg hkeeps hcrowded hselves
  have hnests := (keeps_nests hg hkeeps hcrowded hselves).reached hstart hs
  obtain ⟨frame, outer, hstack⟩ := List.exists_cons_of_ne_nil hrooted.ne_nil
  rw [topMode, topId, hstack]
  rw [hstack] at hrooted hnests
  exact terminator_eq_spliceOf hleaves hg hkeeps hrooted hnests

end ScanSetting

end SyntaxHighlight
