import SyntaxHighlight.Proofs.Outcome
import SyntaxHighlight.Proofs.Scan.Frame

/-! What a match does to the open modes. -/
namespace SyntaxHighlight.ScanState

variable {e : ScanSetting} {s s' : ScanState} {m : Rule.Match}

/-- The modes that are open after a match, given those that are open before it. -/
inductive StackStep (e : ScanSetting) (m : Rule.Match) : List Frame → List Frame → Prop
  | same (stack : List Frame) : StackStep e m stack stack
  | opens {id : Nat} (stack : List Frame) (notes : Scratch) :
      m.kind = .begins id → StackStep e m stack (⟨id, notes⟩ :: stack)
  /-- No end holds, but callbacks have been asked. -/
  | stays {stack stack' : List Frame} :
      m.kind = .ends → closedBy e m stack = (stack', none) → StackStep e m stack stack'
  /-- The last mode that closes may start another one. -/
  | closes {stack stack' : List Frame} {n : Nat} :
      m.kind = .ends → closedBy e m stack = (stack', some n) →
      StackStep e m stack
        (((e.grammar.mode ((stack'[n - 1]?.map Frame.mode).getD CompiledGrammar.rootId)).starts.map
          fun next ↦ ({ mode := next } : Frame)).toList ++ stack'.drop n)

theorem endsHere_mode (frame : Frame) : (endsHere e m frame).2.mode = frame.mode := by
  unfold endsHere
  dsimp only
  split
  · split <;> rfl
  · rfl

/-- Callbacks only change what they have noted. -/
theorem closedBy_map_mode (stack : List Frame) :
    (closedBy e m stack).1.map Frame.mode = stack.map Frame.mode := by
  induction stack with
  | nil => rfl
  | cons frame outer ih =>
    simp only [closedBy]
    split
    · simp [endsHere_mode]
    · split <;> simp [endsHere_mode, ih]

theorem map_mode_of_closedBy {stack stack' : List Frame} {closed : Option Nat}
    (h : closedBy e m stack = (stack', closed)) :
    stack'.map Frame.mode = stack.map Frame.mode := by
  have hmodes := closedBy_map_mode (e := e) (m := m) stack
  rwa [h] at hmodes

theorem stepOver_stack (position : Nat) : (s.stepOver e position).stack = s.stack := by
  unfold stepOver
  dsimp only
  split <;> rfl

theorem pass_stack : (s.pass e m).stack = s.stack := by
  unfold pass
  dsimp only
  split
  · rw [stepOver_stack]
  · rfl

theorem openMode_stack (id : Nat) (groups : List (Option Span)) (notes : Scratch) :
    (s.openMode e id groups notes).stack = ⟨id, notes⟩ :: s.stack := by
  have h : ∀ (t : ScanState) (parts : List (Nat × Option String)),
      t.stack = s.stack → (addParts e groups parts t).stack = s.stack :=
    fun t parts ht ↦ (steady_addParts e t groups parts).stack.trans ht
  unfold openMode
  dsimp only
  split <;> split <;> simp only [addScoped, h]

theorem addBegin_stack {mode : CompiledMode} (h : s.addBegin e mode m = .ok s') :
    s'.stack = s.stack := by
  unfold addBegin at h
  dsimp only at h
  split at h
  · cases h
    rfl
  · obtain ⟨t, ht, hs⟩ := bind_eq_ok.1 h
    cases hs
    have hstack := (steady_flush ht).stack
    split at hstack <;> split <;> exact hstack

theorem onBegin_stack {id following : Nat} (h : s.onBegin e id m following = .ok s') :
    s'.stack = s.stack ∨ ∃ notes, s'.stack = ⟨id, notes⟩ :: s.stack := by
  unfold onBegin at h
  dsimp only at h
  split at h
  · split at h
    · cases h
      exact .inl (stepOver_stack _)
    · cases h
      exact .inl rfl
  · obtain ⟨t, ht, hs⟩ := bind_eq_ok.1 h
    cases hs
    have hstack := openMode_stack (e := e) (s := t) id m.groups
      (askAll (matchData e m) .empty
        ((e.grammar.mode id).beforeBegin.toList ++ (e.grammar.mode id).onBegin.toList)).2
    rw [addBegin_stack ht] at hstack
    exact .inr ⟨_, hstack⟩

theorem closeModes_stack (n : Nat) : (closeModes e n s).stack = s.stack.drop n := by
  induction n generalizing s with
  | zero => rfl
  | succ n ih =>
    rw [closeModes, ih, closeMode]
    split
    · simp [*]
    · simp [*]

theorem addEnd_stack (h : s.addEnd e m = .ok s') : s'.stack = s.stack := by
  unfold addEnd at h
  dsimp only at h
  split at h
  · obtain ⟨t, ht, hs⟩ := bind_eq_ok.1 h
    cases hs
    exact (steady_flush ht).stack
  · obtain ⟨t, ht, hs⟩ := bind_eq_ok.1 h
    cases hs
    exact (steady_addParts ..).stack.trans (steady_flush ht).stack
  · split at h
    · cases h
      rfl
    · obtain ⟨t, ht, hs⟩ := bind_eq_ok.1 h
      cases hs
      have hstack := (steady_flush ht).stack
      split at hstack <;> split <;> exact hstack

theorem onEnd_closes {stack : List Frame} {n : Nat} (hc : closedBy e m s.stack = (stack, some n))
    (h : s.onEnd e m = .ok s') :
    s'.stack =
      ((e.grammar.mode ((stack[n - 1]?.map Frame.mode).getD CompiledGrammar.rootId)).starts.map
        fun next ↦ ({ mode := next } : Frame)).toList ++ stack.drop n := by
  unfold onEnd at h
  simp only [hc] at h
  obtain ⟨t, ht, hs⟩ := bind_eq_ok.1 h
  cases hs
  have hdrop : (closeModes e n t).stack = stack.drop n := by
    rw [closeModes_stack, addEnd_stack ht]
  split
  · rename_i next hnext
    simp [goOn, openMode_stack, hdrop, hnext]
  · rename_i hnext
    simp [goOn, hdrop, hnext]

theorem onEnd_stack (hm : m.kind = .ends) (h : s.onEnd e m = .ok s') :
    StackStep e m s.stack s'.stack := by
  rcases hc : closedBy e m s.stack with ⟨stack, closed⟩
  cases closed with
  | none =>
    simp only [onEnd, hc] at h
    cases h
    rw [pass_stack]
    exact .stays hm hc
  | some n =>
    rw [onEnd_closes hc h]
    exact .closes hm hc

theorem onMatch_ends {following : Nat} (hm : m.kind = .ends) (hs : s.stalled? e m = none) :
    s.onMatch e m following =
      { s.keep (e.text.slice s.position m.index) with lastMatch := some (m.kind, m.index) }.onEnd
        e m := by
  have hs' : (s.keep (e.text.slice s.position m.index)).stalled? e m = none := hs
  simp only [onMatch, hs', hm]

theorem onMatch_stalls {following opened : Nat} (hs : s.stalled? e m = some opened)
    (h : s.onMatch e m following = .ok s') : s'.stack = s.stack := by
  have hs' : (s.keep (e.text.slice s.position m.index)).stalled? e m = some opened := hs
  simp only [onMatch, hs'] at h
  split at h
  · cases h
    rw [stepOver_stack]
    rfl
  · cases h

theorem onMatch_stack {following : Nat} (h : s.onMatch e m following = .ok s') :
    StackStep e m s.stack s'.stack := by
  cases hs : s.stalled? e m with
  | some opened =>
    rw [onMatch_stalls hs h]
    exact .same _
  | none =>
    have hs' : (s.keep (e.text.slice s.position m.index)).stalled? e m = none := hs
    simp only [onMatch, hs'] at h
    split at h
    · rename_i id hm
      obtain hs | ⟨notes, hs⟩ := onBegin_stack h
      · rw [hs]
        exact .same _
      · rw [hs]
        exact .opens _ notes hm
    · rename_i hm
      have hstep := onEnd_stack hm h
      exact hstep
    · split at h
      · cases h
        rw [pass_stack]
        exact .same _
      · cases h

theorem turn_eq_some (h : s.turn e = .ok (some s')) :
    ∃ m following, (s.topMode e).matcher.next s.firstRule e.text s.position =
        .ok (some (m, following)) ∧
      onMatch e { s with iterations := s.iterations + 1, firstRule := 0 } m following = .ok s' := by
  unfold turn at h
  dsimp only at h
  split at h
  · cases h
  · cases h
  · rename_i m following hnext
    split at h
    · cases h
    · obtain ⟨t, ht, hs⟩ := map_eq_ok.1 h
      cases hs
      exact ⟨m, following, hnext, ht⟩

theorem turn_stack (h : s.turn e = .ok (some s')) :
    ∃ m following, (s.topMode e).matcher.next s.firstRule e.text s.position =
        .ok (some (m, following)) ∧ StackStep e m s.stack s'.stack := by
  obtain ⟨m, following, hnext, hs⟩ := turn_eq_some h
  have hstep := onMatch_stack hs
  exact ⟨m, following, hnext, hstep⟩

end SyntaxHighlight.ScanState
