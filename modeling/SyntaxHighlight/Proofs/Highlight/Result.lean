import SyntaxHighlight.Highlight.Highlighter
import SyntaxHighlight.Proofs.Highlight.Ranking
import SyntaxHighlight.Proofs.Outcome

/-!
What a result is made of. A text in a language is scanned to its end or left as it is; a text of
unknown language comes to the first of its ranked results, with the next one beside it.
-/
namespace SyntaxHighlight.Highlighter

variable {h : Highlighter} {l : Languages} {language code : String} {ignoreIllegals : Bool}
  {c : Option Continuation} {r : HighlightResult}

theorem settle_eq_ok {error : ScanError} (hr : h.settle language code error = .ok r) :
    ∃ illegal illegalBy errorRaised,
      r = { fallback language code with illegal, illegalBy, errorRaised } := by
  unfold settle at hr
  split at hr
  · cases hr
    exact ⟨_, _, _, rfl⟩
  · split at hr
    · cases hr
      exact ⟨_, _, _, rfl⟩
    · split at hr <;> cases hr

theorem highlightWith_eq_ok (hr : h.highlightWith l language code ignoreIllegals c = .ok r) :
    ∃ loaded, h.registry.load language = .ok loaded ∧
      ((∃ output, (ScanSetting.mk loaded (h.scanOptions ignoreIllegals) l (.ofString code)).run c =
          .ok output ∧ r = h.scanned language code output) ∨
        ∃ error, (ScanSetting.mk loaded (h.scanOptions ignoreIllegals) l (.ofString code)).run c =
          .error error ∧ h.settle language code error = .ok r) := by
  obtain ⟨loaded, hload, hr⟩ := bind_eq_ok.1 hr
  refine ⟨loaded, hload, ?_⟩
  split at hr
  · rename_i output hrun
    cases hr
    exact .inl ⟨output, hrun, rfl⟩
  · rename_i error hrun
    exact .inr ⟨error, hrun, hr⟩

theorem language_of_highlightWith (hr : h.highlightWith l language code ignoreIllegals c = .ok r) :
    r.language = some language := by
  obtain ⟨loaded, -, ⟨output, -, rfl⟩ | ⟨error, -, hr⟩⟩ := highlightWith_eq_ok hr
  · rfl
  · obtain ⟨_, _, _, rfl⟩ := settle_eq_ok hr
    rfl

variable {subset : Option (List String)} {d : Detection}

theorem detectWith_eq_ok (hd : h.detectWith l code subset = .ok d) :
    ∃ results others, (h.candidates subset).mapM (fun name ↦
        h.highlightWith l name code h.settings.autodetectIgnoreIllegals none) = .ok results ∧
      Ranking.rank h.registry.supersetOf? standing (.plaintext code :: results) =
        d.best :: others ∧
      d.secondBest = others.head? := by
  obtain ⟨ranked, hranked, hd⟩ := bind_eq_ok.1 hd
  obtain ⟨results, hresults, hranked⟩ := bind_eq_ok.1 hranked
  cases hranked
  split at hd
  · -- The text as it is is always among the ranked results.
    rename_i hnil
    have hperm : ([] : List HighlightResult).Perm (.plaintext code :: results) :=
      hnil ▸ Ranking.rank_perm _
    cases hperm.length_eq
  · rename_i best others hranking
    cases hd
    exact ⟨results, others, hresults, hranking, rfl⟩

theorem detectWith_all {P : HighlightResult → Prop} (hd : h.detectWith l code subset = .ok d)
    (hplain : P (.plaintext code))
    (hresults : ∀ name r, name ∈ h.candidates subset →
      h.highlightWith l name code h.settings.autodetectIgnoreIllegals none = .ok r → P r) :
    P d.best ∧ ∀ r, d.secondBest = some r → P r := by
  obtain ⟨results, others, hall, hranking, hsecond⟩ := detectWith_eq_ok hd
  have hranked (r : HighlightResult) (hr : r ∈ d.best :: others) : P r := by
    rw [← hranking, (Ranking.rank_perm _).mem_iff] at hr
    obtain rfl | hr := List.mem_cons.1 hr
    · exact hplain
    · obtain ⟨name, hname, hr⟩ := exists_of_mem_mapM hall hr
      exact hresults name r hname hr
  refine ⟨hranked _ List.mem_cons_self, fun r hr ↦ hranked r (List.mem_cons_of_mem _ ?_)⟩
  exact List.mem_of_head? (hsecond ▸ hr)

end SyntaxHighlight.Highlighter
