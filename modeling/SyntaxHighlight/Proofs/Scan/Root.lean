import Mathlib
import SyntaxHighlight.Proofs.Grammar.Root
import SyntaxHighlight.Proofs.Scan.Reach

/-! The outermost mode stays open. Only an end of its own could close it. -/
namespace SyntaxHighlight

/-- The outermost mode lies at the bottom of the open ones. -/
def Rooted (stack : List Frame) : Prop :=
  stack.getLast?.map Frame.mode = some CompiledGrammar.rootId

namespace Rooted

variable {stack : List Frame}

theorem ne_nil (h : Rooted stack) : stack ≠ [] := by
  rintro rfl
  cases h

theorem cons (h : Rooted stack) (frame : Frame) : Rooted (frame :: stack) := by
  cases stack with
  | nil => cases h
  | cons top outer => simpa [Rooted] using h

theorem append (h : Rooted stack) (inner : List Frame) : Rooted (inner ++ stack) := by
  induction inner with
  | nil => exact h
  | cons frame inner ih => exact ih.cons frame

theorem drop (h : Rooted stack) {n : Nat} (hn : n < stack.length) : Rooted (stack.drop n) := by
  rw [Rooted, List.getLast?_drop, if_neg (by omega)]
  exact h

theorem of_map_mode {stack' : List Frame} (h : Rooted stack)
    (hm : stack'.map Frame.mode = stack.map Frame.mode) : Rooted stack' := by
  rw [Rooted, ← List.getLast?_map] at h ⊢
  rw [hm, h]

end Rooted

namespace ScanState

variable {e : ScanSetting} {s s' : ScanState} {m : Rule.Match}

theorem closing_pos {stack : List Frame} (h : stack ≠ []) : 0 < closing e stack := by
  cases stack with
  | nil => exact absurd rfl h
  | cons frame outer =>
    rw [closing]
    split <;> omega

theorem closing_le_length (frame : Frame) {outer : List Frame} (h : outer ≠ []) :
    closing e (frame :: outer) ≤ outer.length := by
  induction outer generalizing frame with
  | nil => exact absurd rfl h
  | cons next outer ih =>
    rw [closing]
    split
    · rename_i hc
      have houter : outer ≠ [] := by
        rintro rfl
        simp at hc
      have := ih next houter
      simp only [List.length_cons]
      omega
    · simp

theorem closedBy_pos {stack stack' : List Frame} {n : Nat}
    (h : closedBy e m stack = (stack', some n)) : 0 < n := by
  cases stack with
  | nil => cases h
  | cons frame outer =>
    simp only [closedBy] at h
    split at h
    · cases h
      exact closing_pos (List.cons_ne_nil _ _)
    · split at h
      · cases hc : (closedBy e m outer).2 <;> simp_all
        omega
      · cases h

theorem closedBy_lt_length {stack stack' : List Frame} {n : Nat}
    (h : closedBy e m stack = (stack', some n)) (hl : 1 < stack.length) : n < stack.length := by
  induction stack generalizing stack' n with
  | nil => cases h
  | cons frame outer ih =>
    have houter : outer ≠ [] := by
      rintro rfl
      simp at hl
    simp only [closedBy] at h
    split at h
    · cases h
      have := closing_le_length (e := e) (endsHere e m frame).2 houter
      simp only [List.length_cons]
      omega
    · split at h
      · rename_i hclimb
        rcases hc : closedBy e m outer with ⟨outer', closed⟩
        rw [hc] at h
        cases closed with
        | none => cases h
        | some k =>
          simp only [Option.map_some, Prod.mk.injEq, Option.some.injEq] at h
          have hk := ih hc (by simp at hclimb; omega)
          simp only [List.length_cons]
          omega
      · cases h

/-- The outermost mode closes only if it is open alone and its own end matches. -/
theorem closedBy_singleton (frame : Frame) :
    closedBy e m [frame] =
      ([(endsHere e m frame).2], if (endsHere e m frame).1 then some 1 else none) := by
  simp only [closedBy]
  split <;> simp [closing, *]

variable {stack stack' : List Frame}

/-- A match that closes the outermost mode. -/
def ClosesRoot (e : ScanSetting) (s : ScanState) (m : Rule.Match) : Prop :=
  m.kind = .ends ∧ s.stalled? e m = none ∧
    ∃ frame, s.stack = [frame] ∧ (endsHere e m frame).1 = true

theorem rooted_singleton {frame : Frame} (h : Rooted [frame]) :
    frame.mode = CompiledGrammar.rootId := by
  simpa [Rooted] using h

/-- An end closes at least one mode, and the outermost one only if that is open alone. -/
theorem closedBy_bounds {n : Nat} (h : closedBy e m stack = (stack', some n)) :
    0 < n ∧ (n < stack.length ∨ ∃ frame, stack = [frame] ∧ (endsHere e m frame).1 = true) := by
  refine ⟨closedBy_pos h, ?_⟩
  match stack with
  | [] => cases h
  | [frame] =>
    rw [closedBy_singleton] at h
    refine .inr ⟨frame, rfl, ?_⟩
    cases hends : (endsHere e m frame).1 with
    | true => rfl
    | false => simp [hends] at h
  | frame :: next :: outer => exact .inl (closedBy_lt_length h (by simp))

theorem StackStep.rooted (h : StackStep e m stack stack') (hs : Rooted stack) :
    Rooted stack' ∨
      m.kind = .ends ∧ ∃ frame, stack = [frame] ∧ (endsHere e m frame).1 = true := by
  cases h with
  | same => exact .inl hs
  | opens stack notes => exact .inl (hs.cons _)
  | stays hm hc => exact .inl (hs.of_map_mode (map_mode_of_closedBy hc))
  | @closes _ after n hm hc =>
    have hmodes := map_mode_of_closedBy hc
    have hlength : after.length = stack.length := by simpa using congrArg List.length hmodes
    obtain ⟨-, hlt | hroot⟩ := closedBy_bounds hc
    · exact .inl (((hs.of_map_mode hmodes).drop (by omega)).append _)
    · exact .inr ⟨hm, hroot⟩

theorem onEnd_closesRoot (h : s.onEnd e m = .ok s') (hstarts : e.grammar.root.starts = none)
    {frame : Frame} (hstack : s.stack = [frame]) (hframe : frame.mode = CompiledGrammar.rootId)
    (hends : (endsHere e m frame).1 = true) : s'.stack = [] := by
  have hclosed : closedBy e m s.stack = ([(endsHere e m frame).2], some 1) := by
    rw [hstack, closedBy_singleton, if_pos hends]
  have hnone : (e.grammar.mode CompiledGrammar.rootId).starts = none := hstarts
  rw [onEnd_closes hclosed h]
  simp [endsHere_mode, hframe, hnone]

theorem onMatch_rooted_iff {following : Nat} (h : s.onMatch e m following = .ok s')
    (hstarts : e.grammar.root.starts = none) (hs : Rooted s.stack) :
    Rooted s'.stack ↔ ¬ ClosesRoot e s m := by
  constructor
  · rintro hrooted ⟨hkind, hstalled, frame, hstack, hends⟩
    rw [onMatch_ends hkind hstalled] at h
    have hframe : frame.mode = CompiledGrammar.rootId := rooted_singleton (hstack ▸ hs)
    have hempty := onEnd_closesRoot h hstarts hstack hframe hends
    exact hrooted.ne_nil hempty
  · intro hcloses
    obtain hrooted | ⟨hkind, hroot⟩ := StackStep.rooted (onMatch_stack h) hs
    · exact hrooted
    · cases hstalled : s.stalled? e m with
      | none => exact absurd ⟨hkind, hstalled, hroot⟩ hcloses
      | some opened =>
        rw [onMatch_stalls hstalled h]
        exact hs

/-- The outermost mode is lost in a turn exactly if it is open alone and its own end matches. -/
theorem turn_rooted_iff (hstarts : e.grammar.root.starts = none) (hs : Rooted s.stack)
    {following : Nat}
    (hm : (s.topMode e).matcher.next s.firstRule e.text s.position = .ok (some (m, following)))
    (h : s.turn e = .ok (some s')) : Rooted s'.stack ↔ ¬ ClosesRoot e s m := by
  obtain ⟨m', following', hm', hmatch⟩ := turn_eq_some h
  cases hm.symm.trans hm'
  have hiff := onMatch_rooted_iff hmatch hstarts hs
  exact hiff

theorem not_endsHere {frame : Frame} (h : (e.grammar.mode frame.mode).ending = none) :
    (endsHere e m frame).1 = false := by
  simp [endsHere, h]

/-- Without an end of its own, the outermost mode is not among those that an end closes. -/
theorem closedBy_lt_of_rooted (hending : e.grammar.root.ending = none) (hs : Rooted stack) {n : Nat}
    (h : closedBy e m stack = (stack', some n)) : n < stack.length := by
  obtain ⟨-, hlt | ⟨frame, rfl, hends⟩⟩ := closedBy_bounds h
  · exact hlt
  · have hnone : (e.grammar.mode frame.mode).ending = none := rooted_singleton hs ▸ hending
    rw [not_endsHere hnone] at hends
    cases hends

theorem not_closesRoot (hending : e.grammar.root.ending = none) (hs : Rooted s.stack) :
    ¬ ClosesRoot e s m := by
  rintro ⟨-, -, frame, hstack, hends⟩
  have hframe : frame.mode = CompiledGrammar.rootId := rooted_singleton (hstack ▸ hs)
  have hnone : (e.grammar.mode frame.mode).ending = none := hframe ▸ hending
  rw [not_endsHere hnone] at hends
  cases hends

end ScanState

namespace ScanSetting

variable {e : ScanSetting} {c : Option Continuation}

theorem keeps_rooted (hstarts : e.grammar.root.starts = none)
    (hending : e.grammar.root.ending = none) : e.Keeps Rooted := by
  intro s s' hs h
  obtain ⟨m, following, hm, -⟩ := ScanState.turn_eq_some h
  exact (ScanState.turn_rooted_iff hstarts hs hm h).2 (ScanState.not_closesRoot hending hs)

theorem Reached.rooted {s : ScanState} (hstarts : e.grammar.root.starts = none)
    (hending : e.grammar.root.ending = none) (hc : Rooted (e.startStack c))
    (hs : Reached e c s) : Rooted s.stack :=
  (keeps_rooted hstarts hending).reached hc hs

/-- Without an end of its own, the outermost mode is open when a scan starts, whatever it goes on
from. -/
theorem Resumes.rooted {loaded : LoadedGrammar} (hstarts : loaded.grammar.root.starts = none)
    (hending : loaded.grammar.root.ending = none) (hc : Resumes loaded c) {e : ScanSetting}
    (he : e.loaded = loaded) : Rooted (e.startStack c) := by
  have hroot : Rooted [{ mode := CompiledGrammar.rootId }] := rfl
  refine hc.startStack hroot (fun f hf ↦ ?_) he
  have hsame : f.grammar.root = loaded.grammar.root := congrArg (·.grammar.root) hf
  exact keeps_rooted (hsame ▸ hstarts) (hsame ▸ hending)

/-- Whatever a scan goes on from, the outermost mode lies below the others in every state, and an
end closes modes above it only, unless the grammar gives that mode an end of its own. If it does,
the mode is lost in just those turns in which it is open alone and its end matches. -/
theorem root_stays_open {g : Grammar} {scoring : KeywordScoring}
    (hg : g.compile scoring = .ok e.grammar) (hc : Resumes e.loaded c) :
    (¬ g.EndsRoot → ∀ s, Reached e c s → Rooted s.stack ∧
      ∀ m n, (ScanState.closedBy e m s.stack).2 = some n → 0 < n ∧ n < s.stack.length) ∧
    ∀ s s' m following, Rooted s.stack →
      (s.topMode e).matcher.next s.firstRule e.text s.position = .ok (some (m, following)) →
      s.turn e = .ok (some s') →
      (Rooted s'.stack ↔ ¬ ScanState.ClosesRoot e s m) ∧
        (ScanState.ClosesRoot e s m → g.EndsRoot) := by
  have hstarts := Grammar.compile_root_starts hg
  have hending : ¬ g.EndsRoot → e.grammar.root.ending = none := fun h ↦
    Option.not_isSome_iff_eq_none.1 (mt (Grammar.compile_root_ending hg).1 h)
  refine ⟨fun hno s hs ↦ ?_, fun s s' m following hs hm hturn ↦
    ⟨ScanState.turn_rooted_iff hstarts hs hm hturn, fun hcloses ↦ ?_⟩⟩
  · have hrooted := hs.rooted hstarts (hending hno) (hc.rooted hstarts (hending hno) rfl)
    refine ⟨hrooted, fun m n hn ↦ ?_⟩
    have hclosed : ScanState.closedBy e m s.stack = ((ScanState.closedBy e m s.stack).1, some n) :=
      Prod.ext rfl hn
    exact ⟨ScanState.closedBy_pos hclosed,
      ScanState.closedBy_lt_of_rooted (hending hno) hrooted hclosed⟩
  · exact Classical.byContradiction fun hno ↦
      ScanState.not_closesRoot (hending hno) hs hcloses

/-- A grammar whose outermost mode ends at an x. -/
def endingAtX : Grammar := { extensions := [{ isRoot := some true, newEnding := some "x" }] }

def endingAtX.setting (text : String) : ScanSetting where
  loaded := ⟨.substitute, ((endingAtX.compile default).toOption).getD default⟩
  options := ⟨true, false, 10, 7⟩
  languages := ⟨fun _ ↦ false, fun _ _ _ ↦ .error .endlessEmbedding,
    fun _ _ ↦ .error .endlessEmbedding⟩
  text := .ofString text

theorem root_lost_at_x :
    ∃ s m, ((endingAtX.setting "x").start none).turn (endingAtX.setting "x") = .ok (some s) ∧
      s.stack = [] ∧
      ScanState.ClosesRoot (endingAtX.setting "x") ((endingAtX.setting "x").start none) m := by
  have hg : endingAtX.compile default = .ok (endingAtX.setting "x").grammar := by
    simp only [ScanSetting.grammar, endingAtX.setting]
    exact eq_ok_of_isOk (by cbv) default
  have hstack : ((((endingAtX.setting "x").start none).turn
      (endingAtX.setting "x")).toOption.join.map ScanState.stack) = some [] := by cbv
  obtain ⟨s, hturn, hempty⟩ := eq_ok_some hstack
  obtain ⟨m, following, hm, -⟩ := ScanState.turn_eq_some hturn
  have hrooted : Rooted ((endingAtX.setting "x").start none).stack := rfl
  have hiff := ((root_stays_open hg .fresh).2 _ s m following hrooted hm hturn).1
  refine ⟨s, m, hturn, hempty, ?_⟩
  exact Classical.byContradiction fun hno ↦ (hiff.2 hno).ne_nil hempty

end ScanSetting

end SyntaxHighlight
