import SyntaxHighlight.Mode.Library
import SyntaxHighlight.Proofs.Dictionary
import SyntaxHighlight.Proofs.Grammar.Arena
import SyntaxHighlight.Proofs.Mode.Prepared
import SyntaxHighlight.Scan.Step

/-! Callbacks that note what a begin has matched, and ask an end for the same. -/
namespace SyntaxHighlight

/-- The mode notes what the first group of its begin has matched, and takes an end for its own only
if the first group of that has matched the same. -/
structure CompiledMode.EndsAsItBegan (mode : CompiledMode) : Prop where
  onBegin : mode.onBegin = some [.store Mode.openedKey 1]
  onEnd : mode.onEnd = some [.ignoreUnlessRepeated Mode.openedKey 1]

theorem Compilation.endsAsItBegan {g : Grammar} {scoring : KeywordScoring} {fuel : Nat}
    {t : Template} {around : List Enclosing} {a a' : Arena}
    (c : Compilation g scoring fuel t around a a') (hext : g.extensions = []) {m : Mode}
    (ht : t.mode = m.endsAsItBegan) (hb : m.beforeMatch = none) : c.mode.EndsAsItBegan := by
  have hprepare := c.prepare_eq
  rw [hext, ht] at hprepare
  obtain ⟨honBegin, honEnd⟩ := Mode.prepare_callbacks (m := m.endsAsItBegan) hb hprepare
  exact ⟨honBegin, honEnd⟩

namespace ScanState

variable {m : MatchData} {notes : Scratch}

/-- The last callback is asked if none rejects the match. -/
theorem askAll_append {callbacks : List Callback} {last : Callback}
    (h : (askAll m notes (callbacks ++ [last])).1 = false) :
    ∃ notes', (askAll m notes (callbacks ++ [last])).2 = (last.run m notes').2 := by
  induction callbacks generalizing notes with
  | nil =>
    refine ⟨notes, ?_⟩
    simp only [List.nil_append, askAll]
    split <;> rfl
  | cons callback callbacks ih =>
    simp only [List.cons_append, askAll] at h ⊢
    split
    · rename_i hrejected
      rw [if_pos hrejected] at h
      cases h
    · rename_i hrejected
      rw [if_neg hrejected] at h
      exact ih h

end ScanState

end SyntaxHighlight
