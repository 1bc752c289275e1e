import SyntaxHighlight.Proofs.Scan.Reach

/-! What may stop a scan: what it finds itself, or a language that fails on a text embedded in it. -/
namespace SyntaxHighlight

/-- A language that a text may embed fails. -/
inductive Languages.Fails (l : Languages) (cause : HighlightError) : Prop
  | highlight {name text : String} {c : Option Continuation} : l.isKnown name = true →
      l.highlight name text c = .error cause → l.Fails cause
  | detect {text : String} {names : List String} : l.detect text names = .error cause →
      l.Fails cause

/-- The errors that a scan may stop with. -/
inductive ScanSetting.Stops (e : ScanSetting) : ScanError → Prop
  | illegal (message : String) (offset : Nat) (mode : String) :
      e.options.ignoreIllegals = false → e.Stops (.illegal message offset mode)
  | zeroWidth (rule : String) : e.options.safeMode = false → e.Stops (.zeroWidth rule)
  | runaway (iterations : Nat) : e.Stops (.runaway iterations)
  | pattern (cause : GrammarError) : e.Stops (.pattern cause)
  | embedded {cause : HighlightError} : e.languages.Fails cause → e.Stops (.embedded cause)

namespace ScanState

variable {e : ScanSetting} {s : ScanState} {m : Rule.Match} {err : ScanError}

/-- Text enters the tree, or a language that it embeds fails. -/
theorem flush_eq_error (h : s.flush e = .error err) :
    ∃ cause, err = .embedded cause ∧ e.languages.Fails cause := by
  unfold flush at h
  dsimp only at h
  split at h
  · unfold addEmbedded at h
    split at h
    · cases h
    · split at h
      · split at h
        · rename_i hknown
          split at h
          · rename_i cause hcause
            cases h
            exact ⟨cause, rfl, .highlight hknown hcause⟩
          · cases h
        · cases h
      · split at h
        · rename_i cause hcause
          cases h
          exact ⟨cause, rfl, .detect hcause⟩
        · cases h
  · cases h

theorem onBegin_eq_error {id following : Nat} (h : s.onBegin e id m following = .error err) :
    ∃ cause, err = .embedded cause ∧ e.languages.Fails cause := by
  unfold onBegin at h
  dsimp only at h
  split at h
  · split at h <;> cases h
  · obtain h | ⟨t, -, h⟩ := bind_eq_error.1 h
    · unfold addBegin at h
      dsimp only at h
      split at h
      · cases h
      · obtain h | ⟨t, -, h⟩ := bind_eq_error.1 h
        · exact flush_eq_error h
        · cases h
    · cases h

theorem addEnd_eq_error (h : s.addEnd e m = .error err) :
    ∃ cause, err = .embedded cause ∧ e.languages.Fails cause := by
  unfold addEnd at h
  dsimp only at h
  split at h
  · obtain h | ⟨t, -, h⟩ := bind_eq_error.1 h
    · exact flush_eq_error h
    · cases h
  · obtain h | ⟨t, -, h⟩ := bind_eq_error.1 h
    · exact flush_eq_error h
    · cases h
  · split at h
    · cases h
    · obtain h | ⟨t, -, h⟩ := bind_eq_error.1 h
      · exact flush_eq_error h
      · cases h

theorem onEnd_eq_error (h : s.onEnd e m = .error err) :
    ∃ cause, err = .embedded cause ∧ e.languages.Fails cause := by
  unfold onEnd at h
  rcases hc : closedBy e m s.stack with ⟨stack, closed⟩
  simp only [hc] at h
  cases closed with
  | none => cases h
  | some n =>
    obtain h | ⟨t, -, h⟩ := bind_eq_error.1 h
    · exact addEnd_eq_error h
    · cases h

theorem onMatch_stops {following : Nat} (h : s.onMatch e m following = .error err) :
    e.Stops err := by
  have hembedded (herr : ∃ cause, err = .embedded cause ∧ e.languages.Fails cause) :
      e.Stops err := by
    obtain ⟨cause, rfl, hfails⟩ := herr
    exact .embedded hfails
  unfold onMatch at h
  dsimp only at h
  split at h
  · split at h
    · cases h
    · rename_i hstrict
      cases h
      exact .zeroWidth _ (Bool.eq_false_iff.2 hstrict)
  · split at h
    · exact hembedded (onBegin_eq_error h)
    · exact hembedded (onEnd_eq_error h)
    · split at h
      · cases h
      · rename_i hminded
        cases h
        exact .illegal _ _ _ (Bool.eq_false_iff.2 hminded)

theorem turn_stops (h : s.turn e = .error err) : e.Stops err := by
  unfold turn at h
  dsimp only at h
  split at h
  · cases h
    exact .pattern _
  · cases h
  · split at h
    · cases h
      exact .runaway _
    · exact onMatch_stops (map_eq_error.1 h)

end ScanState

namespace ScanSetting

variable {e : ScanSetting} {c : Option Continuation} {s : ScanState} {err : ScanError}

theorem Reached.of_turns_eq_error {n : Nat} (hs : Reached e c s)
    (h : ScanState.turns e n s = .error err) :
    (∃ t, Reached e c t ∧ t.turn e = .error err) ∨ ∃ k, err = .runaway k := by
  induction n generalizing s with
  | zero =>
    cases h
    exact .inr ⟨_, rfl⟩
  | succ n ih =>
    obtain hturn | ⟨next, hnext, hrest⟩ := bind_eq_error.1 h
    · exact .inl ⟨s, hs, hturn⟩
    · cases next with
      | none => cases hrest
      | some t => exact ih (hs.turn hnext) hrest

/-- A scan that fails has come to a state in which it is stopped, has run away, or fails to embed
what is left in the end. -/
theorem run_eq_error (h : e.run c = .error err) :
    (∃ s, Reached e c s ∧ s.turn e = .error err) ∨ (∃ k, err = .runaway k) ∨
      ∃ cause, err = .embedded cause ∧ e.languages.Fails cause := by
  unfold run at h
  dsimp only at h
  split at h
  · cases h
  · obtain hturns | ⟨t, -, hrest⟩ := bind_eq_error.1 h
    · exact (Reached.of_turns_eq_error .start hturns).imp_right .inl
    · obtain hflush | ⟨u, -, hout⟩ := bind_eq_error.1 hrest
      · exact .inr (.inr (ScanState.flush_eq_error hflush))
      · cases hout

theorem run_stops (h : e.run c = .error err) : e.Stops err := by
  obtain ⟨s, -, hturn⟩ | ⟨k, rfl⟩ | ⟨cause, rfl, hfails⟩ := run_eq_error h
  · exact ScanState.turn_stops hturn
  · exact .runaway k
  · exact .embedded hfails

end ScanSetting

end SyntaxHighlight
