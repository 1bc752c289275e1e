import SyntaxHighlight.Proofs.Scan.Reach

/-! What a match leaves for the next turn: which rule matched last, and which rules come next. Only
a rejected begin lets some rules out. -/
namespace SyntaxHighlight.ScanState

/-- The next match of the rules in play, with the first of those that stay in play after it. -/
def Finds (e : ScanSetting) (s : ScanState) (m : Rule.Match) (following : Nat) : Prop :=
  (s.topMode e).matcher.next s.firstRule e.text s.position = .ok (some (m, following))

def askBegin (e : ScanSetting) (id : Nat) (m : Rule.Match) : Bool × Scratch :=
  askAll (matchData e m) .empty
    ((e.grammar.mode id).beforeBegin.toList ++ (e.grammar.mode id).onBegin.toList)

/-- A callback rejects the match as the begin of a mode. -/
def Rejects (e : ScanSetting) (id : Nat) (m : Rule.Match) : Prop := (askBegin e id m).1 = true

/-- What is settled before a match is dealt with stays as it is. -/
structure Settled (s s' : ScanState) : Prop where
  firstRule : s'.firstRule = s.firstRule
  lastMatch : s'.lastMatch = s.lastMatch
  iterations : s'.iterations = s.iterations

variable {e : ScanSetting} {s s' s'' : ScanState} {m : Rule.Match}

namespace Settled

theorem refl (s : ScanState) : Settled s s := ⟨rfl, rfl, rfl⟩

theorem trans (h : Settled s s') (h' : Settled s' s'') : Settled s s'' :=
  ⟨h'.firstRule.trans h.firstRule, h'.lastMatch.trans h.lastMatch,
    h'.iterations.trans h.iterations⟩

end Settled

theorem Steady.settled (h : Steady s s') : Settled s s' := ⟨h.firstRule, h.lastMatch, h.iterations⟩

theorem settled_flush (h : s.flush e = .ok s') : Settled s s' :=
  ⟨(steady_flush h).firstRule, (steady_flush h).lastMatch, (steady_flush h).iterations⟩

theorem settled_stepOver (position : Nat) : Settled s (s.stepOver e position) := by
  unfold stepOver
  dsimp only
  split <;> exact ⟨rfl, rfl, rfl⟩

theorem settled_pass : Settled s (s.pass e m) := by
  unfold pass
  dsimp only
  split
  · exact settled_stepOver _
  · exact ⟨rfl, rfl, rfl⟩

theorem settled_openMode (id : Nat) (groups : List (Option Span)) (notes : Scratch) :
    Settled s (s.openMode e id groups notes) := by
  unfold openMode
  dsimp only
  split
  · split <;> exact ⟨rfl, rfl, rfl⟩
  · split <;> exact ⟨(steady_addParts ..).firstRule, (steady_addParts ..).lastMatch,
      (steady_addParts ..).iterations⟩
  · split <;> exact ⟨rfl, rfl, rfl⟩

theorem settled_addBegin {mode : CompiledMode} (h : s.addBegin e mode m = .ok s') :
    Settled s s' := by
  unfold addBegin at h
  dsimp only at h
  split at h
  · cases h
    exact ⟨rfl, rfl, rfl⟩
  · obtain ⟨t, ht, hs⟩ := bind_eq_ok.1 h
    cases hs
    have hflush := settled_flush ht
    split at hflush <;> split <;> exact ⟨hflush.firstRule, hflush.lastMatch, hflush.iterations⟩

theorem settled_closeModes (n : Nat) : Settled s (closeModes e n s) := by
  induction n generalizing s with
  | zero => exact .refl s
  | succ n ih =>
    have hclose : Settled s (s.closeMode e) := by
      unfold closeMode
      split <;> exact ⟨rfl, rfl, rfl⟩
    exact hclose.trans ih

theorem settled_addEnd (h : s.addEnd e m = .ok s') : Settled s s' := by
  unfold addEnd at h
  dsimp only at h
  split at h
  · obtain ⟨t, ht, hs⟩ := bind_eq_ok.1 h
    cases hs
    exact (settled_flush ht).trans ⟨rfl, rfl, rfl⟩
  · obtain ⟨t, ht, hs⟩ := bind_eq_ok.1 h
    cases hs
    exact (settled_flush ht).trans (steady_addParts ..).settled
  · split at h
    · cases h
      exact ⟨rfl, rfl, rfl⟩
    · obtain ⟨t, ht, hs⟩ := bind_eq_ok.1 h
      cases hs
      have hflush := settled_flush ht
      split at hflush <;> split <;> exact ⟨hflush.firstRule, hflush.lastMatch, hflush.iterations⟩

theorem settled_onEnd (h : s.onEnd e m = .ok s') : Settled s s' := by
  rcases hc : closedBy e m s.stack with ⟨stack, closed⟩
  unfold onEnd at h
  simp only [hc] at h
  cases closed with
  | none =>
    cases h
    have hpass := settled_pass (e := e) (m := m) (s := { s with stack })
    exact ⟨hpass.firstRule, hpass.lastMatch, hpass.iterations⟩
  | some n =>
    obtain ⟨t, ht, hs⟩ := bind_eq_ok.1 h
    cases hs
    have hread := settled_addEnd ht
    have hclosed := hread.trans (settled_closeModes (e := e) n)
    split
    · rename_i next _
      have hopened := hclosed.trans (settled_openMode (e := e) next m.groups .empty)
      exact ⟨hopened.firstRule, hopened.lastMatch, hopened.iterations⟩
    · exact ⟨hclosed.firstRule, hclosed.lastMatch, hclosed.iterations⟩

/-- A begin is rejected, and its rule left out or a character stepped over, or it opens its mode. -/
inductive BeginStep (e : ScanSetting) (id : Nat) (m : Rule.Match) (following : Nat)
    (s : ScanState) : ScanState → Prop
  | stepsOver : Rejects e id m → following = 0 → BeginStep e id m following s (s.stepOver e m.index)
  | retries : Rejects e id m → following ≠ 0 →
      BeginStep e id m following s { s with firstRule := following, position := m.index }
  | opens {s' : ScanState} : ¬ Rejects e id m → Settled s s' →
      s'.stack = ⟨id, (askBegin e id m).2⟩ :: s.stack →
      s'.position = (if (e.grammar.mode id).returnBegin then m.index
        else m.index + (m.lexeme e.text).length) → BeginStep e id m following s s'

namespace BeginStep

variable {id following : Nat}

theorem lastMatch (h : BeginStep e id m following s s') : s'.lastMatch = s.lastMatch := by
  cases h with
  | stepsOver => exact (settled_stepOver _).lastMatch
  | retries => rfl
  | opens _ hsettled => exact hsettled.lastMatch

theorem iterations (h : BeginStep e id m following s s') : s'.iterations = s.iterations := by
  cases h with
  | stepsOver => exact (settled_stepOver _).iterations
  | retries => rfl
  | opens _ hsettled => exact hsettled.iterations

theorem stack_of_rejects (h : BeginStep e id m following s s') (hr : Rejects e id m) :
    s'.stack = s.stack := by
  cases h with
  | stepsOver => exact stepOver_stack _
  | retries => rfl
  | opens hno => exact absurd hr hno

theorem stack_of_not_rejects (h : BeginStep e id m following s s') (hr : ¬ Rejects e id m) :
    s'.stack = ⟨id, (askBegin e id m).2⟩ :: s.stack := by
  cases h with
  | stepsOver hrejects => exact absurd hrejects hr
  | retries hrejects => exact absurd hrejects hr
  | opens _ _ hstack => exact hstack

end BeginStep

theorem onBegin_step {id following : Nat} (h : s.onBegin e id m following = .ok s') :
    BeginStep e id m following s s' := by
  unfold onBegin at h
  dsimp only at h
  split at h
  · rename_i hrejects
    split at h
    · rename_i hlast
      cases h
      exact .stepsOver hrejects hlast
    · rename_i hlast
      cases h
      exact .retries hrejects hlast
  · rename_i hrejects
    obtain ⟨t, ht, hs⟩ := bind_eq_ok.1 h
    cases hs
    have hopened := settled_openMode (e := e) (s := t) id m.groups (askBegin e id m).2
    have hsettled := (settled_addBegin ht).trans hopened
    refine .opens hrejects ⟨hsettled.firstRule, hsettled.lastMatch, hsettled.iterations⟩ ?_ rfl
    rw [← addBegin_stack ht]
    exact openMode_stack ..

theorem stalled?_eq_some {opened : Nat} (h : s.stalled? e m = some opened) :
    m.kind = .ends ∧ s.lastMatch = some (.begins opened, m.index) := by
  unfold stalled? at h
  split at h
  · rename_i hlast
    split at h
    · rename_i hends
      obtain ⟨hkind, rfl, -⟩ := hends
      cases h
      exact ⟨hkind, hlast⟩
    · cases h
  · cases h

theorem stalled?_eq_none (h : m.kind ≠ .ends) : s.stalled? e m = none :=
  Option.eq_none_iff_forall_ne_some.2 fun _ hs ↦ h (stalled?_eq_some hs).1

/-- The state in which a match is dealt with, unless the scan stalls at it. -/
def facing (e : ScanSetting) (s : ScanState) (m : Rule.Match) : ScanState :=
  { s.keep (e.text.slice s.position m.index) with
    iterations := s.iterations + 1
    firstRule := 0
    lastMatch := some (m.kind, m.index) }

@[simp] theorem facing_stack : (s.facing e m).stack = s.stack := rfl

@[simp] theorem facing_firstRule : (s.facing e m).firstRule = 0 := rfl

@[simp] theorem facing_iterations : (s.facing e m).iterations = s.iterations + 1 := rfl

@[simp] theorem facing_lastMatch : (s.facing e m).lastMatch = some (m.kind, m.index) := rfl

section Turns

variable {following : Nat} (hm : s.Finds e m following) (h : s.turn e = .ok (some s'))
include hm h

theorem turn_onMatch :
    onMatch e { s with iterations := s.iterations + 1, firstRule := 0 } m following = .ok s' := by
  obtain ⟨m', following', hm', hmatch⟩ := turn_eq_some h
  cases hm.symm.trans hm'
  exact hmatch

theorem turn_not_isRunaway :
    isRunaway e { s with iterations := s.iterations + 1 } m.index = false := by
  have hm' : (topMode e { s with iterations := s.iterations + 1 }).matcher.next s.firstRule e.text
      s.position = .ok (some (m, following)) := hm
  simp only [turn, hm'] at h
  split at h
  · cases h
  · exact Bool.eq_false_iff.2 ‹_›

theorem turn_eq_stepOver {opened : Nat} (hs : s.stalled? e m = some opened) :
    s' = stepOver e { s.keep (e.text.slice s.position m.index) with
      iterations := s.iterations + 1, firstRule := 0 } m.index := by
  have hmatch := turn_onMatch hm h
  have hs' : stalled? e { s.keep (e.text.slice s.position m.index) with
      iterations := s.iterations + 1, firstRule := 0 } m = some opened := hs
  simp only [onMatch, keep] at hmatch hs'
  rw [hs'] at hmatch
  dsimp only at hmatch
  split at hmatch
  · cases hmatch
    rfl
  · cases hmatch

theorem turn_stalled {opened : Nat} (hs : s.stalled? e m = some opened) :
    s'.stack = s.stack ∧ s'.lastMatch = s.lastMatch ∧ s'.position = m.index + 1 := by
  rw [turn_eq_stepOver hm h hs]
  exact ⟨stepOver_stack _, (settled_stepOver _).lastMatch, rfl⟩

theorem turn_unstalled (hs : s.stalled? e m = none) :
    (match m.kind with
      | .begins id => (s.facing e m).onBegin e id m following
      | .ends => (s.facing e m).onEnd e m
      | .illegal =>
        if e.options.ignoreIllegals then pure ((s.facing e m).pass e m)
        else throw ((s.facing e m).illegalAt e m)) = .ok s' := by
  have hmatch := turn_onMatch hm h
  have hs' : stalled? e { s.keep (e.text.slice s.position m.index) with
      iterations := s.iterations + 1, firstRule := 0 } m = none := hs
  simp only [onMatch, keep] at hmatch hs'
  rw [hs'] at hmatch
  exact hmatch

theorem turn_begins {id : Nat} (hkind : m.kind = .begins id) :
    BeginStep e id m following (s.facing e m) s' := by
  have hmatch := turn_unstalled hm h (stalled?_eq_none (by simp [hkind]))
  simp only [hkind] at hmatch
  exact onBegin_step hmatch

theorem turn_ends (hkind : m.kind = .ends) (hs : s.stalled? e m = none) :
    (s.facing e m).onEnd e m = .ok s' := by
  have hmatch := turn_unstalled hm h hs
  simp only [hkind] at hmatch
  exact hmatch

theorem turn_illegal (hkind : m.kind = .illegal) : s' = (s.facing e m).pass e m := by
  have hmatch := turn_unstalled hm h (stalled?_eq_none (by simp [hkind]))
  simp only [hkind] at hmatch
  split at hmatch
  · cases hmatch
    rfl
  · cases hmatch

theorem turn_lastMatch (hs : s.stalled? e m = none) : s'.lastMatch = some (m.kind, m.index) := by
  cases hkind : m.kind with
  | begins id => rw [(turn_begins hm h hkind).lastMatch, facing_lastMatch, hkind]
  | ends => rw [(settled_onEnd (turn_ends hm h hkind hs)).lastMatch, facing_lastMatch, hkind]
  | illegal => rw [turn_illegal hm h hkind, settled_pass.lastMatch, facing_lastMatch, hkind]

theorem turn_iterations : s'.iterations = s.iterations + 1 := by
  cases hs : s.stalled? e m with
  | some opened =>
    rw [turn_eq_stepOver hm h hs]
    exact (settled_stepOver _).iterations
  | none =>
    cases hkind : m.kind with
    | begins id => rw [(turn_begins hm h hkind).iterations, facing_iterations]
    | ends => rw [(settled_onEnd (turn_ends hm h hkind hs)).iterations, facing_iterations]
    | illegal => rw [turn_illegal hm h hkind, settled_pass.iterations, facing_iterations]

end Turns

end SyntaxHighlight.ScanState
