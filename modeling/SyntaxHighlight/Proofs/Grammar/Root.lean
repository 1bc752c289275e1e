import SyntaxHighlight.Proofs.Grammar.Arena
import SyntaxHighlight.Proofs.Mode.Prepared

/-! The outermost mode of a compiled grammar. It has no end of its own and starts no other mode,
unless a change to the modes of the grammar gives it an end. -/
namespace SyntaxHighlight

namespace Grammar

variable {g : Grammar} {scoring : KeywordScoring} {cg : CompiledGrammar}

/-- A change to the modes of the grammar gives the outermost one an end. -/
def EndsRoot (g : Grammar) : Prop :=
  ∃ p, g.rootMode.prepare none g.extensions = .ok p ∧ p.endSource?.isSome

theorem not_endsRoot (h : ∀ x ∈ g.extensions, x.Leaves Mode.ending) : ¬ g.EndsRoot := by
  rintro ⟨p, hp, hsome⟩
  obtain ⟨named, wrapped, changed, begin, ending, hnamed, hwrapped, hchanged, hmode, -,
    flagReason, scopeReason, hend⟩ := Mode.prepare_eq_ok hp
  cases hnamed
  cases hwrapped
  have hnone : (changed.spelledOut false).ending = none :=
    (changed.alike_spelledOut false).ending.trans (Mode.extended_eq h hchanged)
  rw [Option.isSome_none, hnone] at hend
  rw [Prepared.endSource?, hmode, Mode.tagBoundary_of_none hend] at hsome
  cases hsome

theorem compile_root_starts (h : g.compile scoring = .ok cg) : cg.root.starts = none := by
  obtain ⟨fuel, a, k, hk⟩ := compile_root h
  have hs := k.starts_eq
  rw [hk]
  unfold Placing.placeNext at hs
  split at hs <;> exact (congrArg Prod.fst (Except.ok.inj hs)).symm

theorem compile_root_ending (h : g.compile scoring = .ok cg) :
    cg.root.ending.isSome ↔ g.EndsRoot := by
  obtain ⟨fuel, a, k, hk⟩ := compile_root h
  have hends : g.EndsRoot ↔ k.p.endSource?.isSome := by
    refine ⟨?_, fun hs ↦ ⟨k.p, k.prepare_eq, hs⟩⟩
    rintro ⟨p, hp, hs⟩
    cases hp.symm.trans k.prepare_eq
    exact hs
  have hown : (terminatorsOf k.p []).1 = k.p.endSource? := by simp [terminatorsOf]
  have hending := mapM_isSome k.ending_eq
  rw [hown] at hending
  rw [hk, hends, ← hending]
  rfl

end Grammar

end SyntaxHighlight
