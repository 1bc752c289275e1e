import Mathlib
import SyntaxHighlight.Proofs.Grammar.Matcher
import SyntaxHighlight.Proofs.Scan.Reported
import SyntaxHighlight.Proofs.Scan.Turn
import SyntaxHighlight.Proofs.Text.Offset

/-! Every scan comes to an end. The place of the scan never moves back, and it leaves the text by
one position at most. A scan that takes more turns than its place can justify is stopped. -/
namespace SyntaxHighlight

namespace ScanState

variable {e : ScanSetting} {s s' : ScanState} {m : Rule.Match} {following : Nat}

/-- Where a match leaves the scan: at its start, behind it, or behind the character there. Only at
its start some rules may be left out. -/
inductive Leaves (e : ScanSetting) (m : Rule.Match) (s : ScanState) : Prop
  | atStart : s.position = m.index → Leaves e m s
  | behind : s.position = m.index + (m.lexeme e.text).length → s.firstRule = 0 → Leaves e m s
  | stepsOver : s.position = m.index + 1 → s.firstRule = 0 → Leaves e m s

theorem leaves_stepOver (hs : s.firstRule = 0) : Leaves e m (s.stepOver e m.index) :=
  .stepsOver rfl ((settled_stepOver _).firstRule.trans hs)

theorem leaves_goOn (again : Bool) (hs : s.firstRule = 0) : Leaves e m (s.goOn e m again) := by
  cases again with
  | true => exact .atStart rfl
  | false => exact .behind rfl hs

theorem leaves_pass (hs : s.firstRule = 0) : Leaves e m (s.pass e m) := by
  unfold pass
  dsimp only
  split
  · exact leaves_stepOver hs
  · exact leaves_goOn false hs

theorem leaves_onEnd (hs : s.firstRule = 0) (h : s.onEnd e m = .ok s') : Leaves e m s' := by
  have hfirst : s'.firstRule = 0 := (settled_onEnd h).firstRule.trans hs
  rcases hc : closedBy e m s.stack with ⟨stack, closed⟩
  unfold onEnd at h
  simp only [hc] at h
  cases closed with
  | none =>
    cases h
    exact leaves_pass hs
  | some n =>
    obtain ⟨t, -, hgoOn⟩ := bind_eq_ok.1 h
    cases hgoOn
    exact leaves_goOn _ hfirst

theorem BeginStep.leaves {id : Nat} (h : BeginStep e id m following s s')
    (hs : s.firstRule = 0) : Leaves e m s' := by
  cases h with
  | stepsOver => exact leaves_stepOver hs
  | retries => exact .atStart rfl
  | opens _ hsettled _ hposition =>
    have hfirst : s'.firstRule = 0 := hsettled.firstRule.trans hs
    split at hposition
    · exact .atStart hposition
    · exact .behind hposition hfirst

theorem turn_leaves (hm : s.Finds e m following) (h : s.turn e = .ok (some s')) :
    Leaves e m s' := by
  cases hs : s.stalled? e m with
  | some opened =>
    rw [turn_eq_stepOver hm h hs]
    exact leaves_stepOver rfl
  | none =>
    cases hkind : m.kind with
    | begins id => exact (turn_begins hm h hkind).leaves rfl
    | ends => exact leaves_onEnd rfl (turn_ends hm h hkind hs)
    | illegal =>
      rw [turn_illegal hm h hkind]
      exact leaves_pass rfl

theorem turn_not_runaway (hm : s.Finds e m following) (h : s.turn e = .ok (some s')) :
    s.iterations + 1 ≤ max e.options.maxIterations (3 * e.text.byteOffset m.index) := by
  have hrunaway := Bool.eq_false_iff.1 (turn_not_isRunaway hm h)
  simp only [isRunaway, ne_eq, Bool.and_eq_true, decide_eq_true_eq] at hrunaway
  omega

/-- The place of a scan lies within the text, or one position behind it with all rules in play. -/
def Placed (e : ScanSetting) (s : ScanState) : Prop :=
  s.position ≤ e.text.size ∨ s.position = e.text.size + 1 ∧ s.firstRule = 0

theorem turn_position_le (hm : s.Finds e m following) (h : s.turn e = .ok (some s')) :
    m.index ≤ s'.position := by
  obtain hposition | ⟨hposition, -⟩ | ⟨hposition, -⟩ := turn_leaves hm h <;> omega

theorem finds_within (he : e.grammar.Ranged) (hm : s.Finds e m following) :
    s.position ≤ m.index ∧ m.index ≤ e.text.size := by
  obtain ⟨stop, hwithin⟩ := he.within hm
  exact ⟨hwithin.start_le, Nat.le_trans hwithin.index_le hwithin.stop_le⟩

theorem turn_placed (he : e.grammar.Ranged) (h : s.turn e = .ok (some s')) : Placed e s' := by
  obtain ⟨m, following, hm, -⟩ := turn_eq_some h
  obtain ⟨stop, hwithin⟩ := he.within hm
  have hlength := hwithin.lexeme_length
  have hindex := hwithin.index_le
  have hstop := hwithin.stop_le
  obtain hposition | ⟨hposition, hfirst⟩ | ⟨hposition, hfirst⟩ := turn_leaves hm h
  · exact .inl (by omega)
  · exact .inl (by omega)
  · by_cases hlast : m.index = e.text.size
    · exact .inr ⟨by omega, hfirst⟩
    · exact .inl (by omega)

theorem turn_iterations_le (he : e.grammar.Ranged) (h : s.turn e = .ok (some s')) :
    s'.iterations = s.iterations + 1 ∧
      s'.iterations ≤ max e.options.maxIterations (3 * e.text.bytes) := by
  obtain ⟨m, following, hm, -⟩ := turn_eq_some h
  have hcount := turn_iterations hm h
  have hrunaway := turn_not_runaway hm h
  have hoffset := e.text.byteOffset_le (finds_within he hm).2
  exact ⟨hcount, by omega⟩

end ScanState

namespace ScanSetting

open ScanState

variable {e : ScanSetting} {c : Option Continuation} {s : ScanState} {n : Nat}
  {r : Except ScanError ScanState}

/-- Turns taken one after another until no rule matches or one fails: how many there are, the last
one included, and what they come to. -/
inductive Loop (e : ScanSetting) : ScanState → Nat → Except ScanError ScanState → Prop
  | ends {s : ScanState} : s.turn e = .ok none → Loop e s 1 (.ok s)
  | fails {s : ScanState} {err : ScanError} : s.turn e = .error err → Loop e s 1 (.error err)
  | goesOn {s s' : ScanState} {n : Nat} {r : Except ScanError ScanState} :
      s.turn e = .ok (some s') → Loop e s' n r → Loop e s (n + 1) r

/-- A scan that may take as many turns takes just those of the loop. -/
theorem Loop.turns_eq (h : Loop e s n r) {fuel : Nat} (hn : n ≤ fuel) :
    ScanState.turns e fuel s = r := by
  induction h generalizing fuel with
  | ends hturn | fails hturn =>
    obtain ⟨fuel, rfl⟩ := Nat.exists_eq_add_of_le' hn
    rw [turns, hturn]
    rfl
  | goesOn hturn _ ih =>
    obtain ⟨fuel, rfl⟩ := Nat.exists_eq_add_of_le' (Nat.le_trans (Nat.le_add_left 1 _) hn)
    rw [turns, hturn]
    exact ih (by omega)

theorem loop_or_turn (e : ScanSetting) (s : ScanState) :
    (∃ r, Loop e s 1 r) ∨ ∃ s', s.turn e = .ok (some s') := by
  cases hturn : s.turn e with
  | error err => exact .inl ⟨_, .fails hturn⟩
  | ok next =>
    cases next with
    | none => exact .inl ⟨_, .ends hturn⟩
    | some s' => exact .inr ⟨s', rfl⟩

theorem exists_loop (he : e.grammar.Ranged) (left : Nat)
    (hleft : max e.options.maxIterations (3 * e.text.bytes) ≤ s.iterations + left)
    (hs : s.iterations ≤ max e.options.maxIterations (3 * e.text.bytes)) :
    ∃ n r, s.iterations + n ≤ max e.options.maxIterations (3 * e.text.bytes) + 1 ∧
      Loop e s n r := by
  -- By induction on the turns that are left until a scan counts as a runaway.
  induction left generalizing s with
  | zero =>
    obtain ⟨r, hr⟩ | ⟨s', hturn⟩ := loop_or_turn e s
    · exact ⟨1, r, by omega, hr⟩
    · -- A turn that goes on would be one too many.
      obtain ⟨hcount, hbound⟩ := turn_iterations_le he hturn
      omega
  | succ left ih =>
    obtain ⟨r, hr⟩ | ⟨s', hturn⟩ := loop_or_turn e s
    · exact ⟨1, r, by omega, hr⟩
    · obtain ⟨hcount, hbound⟩ := turn_iterations_le he hturn
      obtain ⟨n, r, hn, hr⟩ := ih (by omega) hbound
      exact ⟨n + 1, r, by omega, .goesOn hturn hr⟩

theorem Reached.placed (he : e.grammar.Ranged) (hs : Reached e c s) : Placed e s := by
  cases hs with
  | start => exact .inl (Nat.zero_le _)
  | turn _ hturn => exact turn_placed he hturn

theorem turn_behind {g : Grammar} {scoring : KeywordScoring}
    (hg : g.compile scoring = .ok e.grammar) (hposition : s.position = e.text.size + 1)
    (hfirst : s.firstRule = 0) : s.turn e = .ok none := by
  have hnext : (topMode e { s with iterations := s.iterations + 1 }).matcher.next s.firstRule
      e.text s.position = .ok none := by
    rw [hfirst]
    exact Grammar.compile_next_of_size_lt hg _ (by omega)
  simp only [turn, hnext]
  rfl

/-- The loop of every scan ends within a number of turns given by the options and the length of the
text. Throughout, the place of the scan never moves back, and what is found lies between it and the
end of the text. It is a place in the text, or just behind its end: then the next turn finds
nothing, and nothing is left to be read. -/
theorem loop_ends {g : Grammar} {scoring : KeywordScoring}
    (hg : g.compile scoring = .ok e.grammar) (hemit : e.grammar.emitTokens = none)
    (he : e.grammar.Ranged) (c : Option Continuation) :
    (∃ n r, n ≤ max e.options.maxIterations (3 * e.text.bytes) + 1 ∧ Loop e (e.start c) n r ∧
      e.run c = do
        let s ← r
        let s ← s.readRest e
        pure (s.output e)) ∧
    ∀ s, Reached e c s →
      (∀ s', s.turn e = .ok (some s') → s.position ≤ s'.position) ∧
      (∀ m following, s.Finds e m following → s.position ≤ m.index ∧ m.index ≤ e.text.size) ∧
      (s.position ≤ e.text.size ∧ e.text.byteOffset s.position ≤ e.text.bytes ∨
        s.position = e.text.size + 1 ∧ e.text.byteOffset s.position = e.text.bytes + 1 ∧
          s.turn e = .ok none ∧ e.text.rest s.position = "") := by
  refine ⟨?_, fun s hs ↦ ⟨fun s' hturn ↦ ?_, fun m following ↦ finds_within he, ?_⟩⟩
  · obtain ⟨n, r, hn, hloop⟩ :=
      exists_loop (s := e.start c) he (max e.options.maxIterations (3 * e.text.bytes))
        (Nat.le_add_left _ _) (Nat.zero_le _)
    have hn : n ≤ max e.options.maxIterations (3 * e.text.bytes) + 1 :=
      Nat.le_trans (Nat.le_add_left _ _) hn
    refine ⟨n, r, hn, hloop, ?_⟩
    have hturns := hloop.turns_eq (Nat.le_succ_of_le hn)
    simp only [run, hemit]
    rw [← hturns]
    rfl
  · obtain ⟨m, following, hm, -⟩ := turn_eq_some hturn
    exact Nat.le_trans (finds_within he hm).1 (turn_position_le hm hturn)
  · obtain hposition | ⟨hposition, hfirst⟩ := hs.placed he
    · exact .inl ⟨hposition, e.text.byteOffset_le hposition⟩
    · refine .inr ⟨hposition, ?_, turn_behind hg hposition hfirst, ?_⟩
      · rw [e.text.byteOffset_of_size_le (by omega), hposition, Nat.add_sub_cancel_left]
      · exact e.text.rest_of_size_le (by omega)

def lineEnds : Grammar where
  contains := [.inline { begin := some (.source "$"), onBegin := some [.ignore] }]

/-- In an empty text the scan steps over the end of the line, and is behind the text. -/
theorem lineEnds_loop_ends : ∃ s, Reached (lineEnds.alone "") none s ∧ s.position = 1 ∧
    s.turn (lineEnds.alone "") = .ok none ∧
    ∃ n r, n ≤ 11 ∧ Loop (lineEnds.alone "") ((lineEnds.alone "").start none) n r := by
  have hg : lineEnds.compile default = .ok (lineEnds.alone "").grammar :=
    Grammar.compile_alone (by cbv) _
  have hvalues : ((lineEnds.alone "").grammar.emitTokens.isNone,
      (lineEnds.alone "").grammar.looksOnward) = (true, true) := by
    cbv
  have hturn : (((lineEnds.alone "").start none).turn (lineEnds.alone "")).toOption.join.map
      (fun s ↦ s.position) = some 1 := by
    cbv
  obtain ⟨hemit, honward⟩ := Prod.mk.inj hvalues
  obtain ⟨⟨n, r, hn, hloop, -⟩, hplaces⟩ :=
    loop_ends hg (Option.isNone_iff_eq_none.1 hemit)
      (CompiledGrammar.ranged_of_looksOnward honward) none
  obtain ⟨s, hs, hposition⟩ := eq_ok_some hturn
  have hreached : Reached (lineEnds.alone "") none s := .turn .start hs
  obtain ⟨hin, -⟩ | ⟨-, -, hlast, -⟩ := (hplaces s hreached).2.2
  · rw [hposition] at hin
    cases hin
  · exact ⟨s, hreached, hposition, hlast, n, r, hn, hloop⟩

end ScanSetting

end SyntaxHighlight
