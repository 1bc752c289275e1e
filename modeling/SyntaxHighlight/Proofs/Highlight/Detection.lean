import Mathlib
import SyntaxHighlight.Highlight.Report
import SyntaxHighlight.Proofs.Highlight.History
import SyntaxHighlight.Proofs.Highlight.Result
import SyntaxHighlight.Proofs.Highlight.RoundTrip

/-!
The best of several languages for a text. The text as it is is ranked first and counts nothing, so
that it gives way to every result that counts something, and to no other.
-/
namespace SyntaxHighlight

theorem HighlightResult.fields_secondBest (r : HighlightResult) (second : Option Json) :
    (r.fields second).get? "secondBest" = second := by
  unfold fields
  cases r.illegalBy <;> cases r.errorRaised <;> cases second <;>
    simp [Json.get?]

namespace Registry

variable {r : Registry} {name : String}

theorem autodetects_iff : r.autodetects name = true ↔
    ∃ registration, r.find? name = some registration ∧
      registration.grammar.disableAutodetect = false := by
  rw [autodetects, grammar?, Option.any_map, Option.any_eq_true]
  simp

end Registry

namespace Highlighter

variable {h : Highlighter} {l : Languages} {code : String} {subset : Option (List String)}
  {d : Detection} {results : List HighlightResult}

theorem plaintext_first_iff {supersetOf : String → Option String} {best : HighlightResult}
    {others : List HighlightResult} (hnamed : ∀ r ∈ results, r.language ≠ none)
    (hranking : Ranking.rank supersetOf standing (.plaintext code :: results) = best :: others) :
    best.language = none ↔ ∀ r ∈ results, r.relevance = 0 := by
  constructor
  · intro hnone r hr
    have hmem : best ∈ .plaintext code :: results := by
      have hperm : (best :: others).Perm (.plaintext code :: results) :=
        hranking ▸ Ranking.rank_perm _
      exact hperm.mem_iff.1 List.mem_cons_self
    have hle : r.relevance ≤ best.relevance :=
      Ranking.relevance_le_first hranking (List.mem_cons_of_mem _ hr)
    obtain rfl | hresult := List.mem_cons.1 hmem
    · exact Nat.le_zero.1 hle
    · exact absurd hnone (hnamed best hresult)
  · intro hzero
    have hstays (r : HighlightResult) (hr : r ∈ results) :
        Ranking.overtakes supersetOf (standing r) (standing (.plaintext code)) = false := by
      rw [Bool.eq_false_iff, Ne, Ranking.overtakes_iff]
      rintro (hlt | ⟨-, hextends⟩)
      · exact absurd (hzero r hr) (Nat.ne_of_gt hlt)
      · cases hextends
    rw [Ranking.rank_cons hstays] at hranking
    cases hranking
    rfl

/-- For a text of unknown language there is one result for each candidate: for each name that was
given, or set, or for each language if there are no such names, as long as it is known and does not
stay out. The first of the ranked results is told. It is in no language just if none of them counts
anything, and else counts as much as any. Next to it stands the one that is ranked next, if there
are candidates at all, and nothing stands next to that one; what remains counts no more. -/
theorem detection_picks_maximum (hd : h.detectWith l code subset = .ok d) :
    (∀ name, name ∈ h.candidates subset ↔
      name ∈ subset.getD
          (if h.settings.languages.isEmpty then h.registry.names else h.settings.languages) ∧
        ∃ registration, h.registry.find? name = some registration ∧
          registration.grammar.disableAutodetect = false) ∧
    ∃ results, (h.candidates subset).mapM (fun name ↦
        h.highlightWith l name code h.settings.autodetectIgnoreIllegals none) = .ok results ∧
      (d.best = .plaintext code ∨ ∃ name ∈ h.candidates subset,
        h.highlightWith l name code h.settings.autodetectIgnoreIllegals none = .ok d.best) ∧
      (∀ r ∈ results, r.relevance ≤ d.best.relevance) ∧
      (results ≠ [] → ∃ r ∈ results, r.relevance = d.best.relevance) ∧
      (d.best.language = none ↔ ∀ r ∈ results, r.relevance = 0) ∧
      (d.secondBest = none ↔ h.candidates subset = []) ∧
      (∀ second, d.secondBest = some second → ∃ others,
        Ranking.rank h.registry.supersetOf? standing (.plaintext code :: results) =
          d.best :: second :: others ∧
        ∀ r ∈ others, r.relevance ≤ second.relevance) ∧
      (d.best.toJson d.secondBest).get? "secondBest" = d.secondBest.map (·.toJson none) ∧
      ∀ second, d.secondBest = some second → (second.toJson none).get? "secondBest" = none := by
  obtain ⟨results, others, hresults, hranking, hsecond⟩ := detectWith_eq_ok hd
  have hnamed (r : HighlightResult) (hr : r ∈ results) : r.language ≠ none := by
    obtain ⟨name, -, hname⟩ := exists_of_mem_mapM hresults hr
    rw [language_of_highlightWith hname]
    exact Option.some_ne_none name
  have hsorted : (d.best :: others).Pairwise fun r r' ↦
      (standing r').relevance ≤ (standing r).relevance := hranking ▸ Ranking.rank_sorted _
  have hperm : (d.best :: others).Perm (.plaintext code :: results) :=
    hranking ▸ Ranking.rank_perm _
  have hbest : d.best = .plaintext code ∨ d.best ∈ results :=
    List.mem_cons.1 (hperm.mem_iff.1 List.mem_cons_self)
  have hle (r : HighlightResult) (hr : r ∈ results) : r.relevance ≤ d.best.relevance :=
    Ranking.relevance_le_first hranking (List.mem_cons_of_mem _ hr)
  have hfirst := plaintext_first_iff hnamed hranking
  refine ⟨fun name ↦ ?_, results, hresults, ?_, hle, fun hsome ↦ ?_, hfirst, ?_,
    fun second hs ↦ ?_, ?_, fun second _ ↦ second.fields_secondBest none⟩
  · unfold candidates
    rw [List.mem_filter, Registry.autodetects_iff]
    cases subset <;> rfl
  · exact hbest.imp_right (exists_of_mem_mapM hresults)
  · -- Where nothing counts, all candidates are as good as the text as it is.
    obtain hplain | hmem := hbest
    · obtain ⟨r, hr⟩ := List.exists_mem_of_ne_nil results hsome
      have hzero := hfirst.1 (congrArg HighlightResult.language hplain) r hr
      exact ⟨r, hr, hzero.trans (congrArg HighlightResult.relevance hplain).symm⟩
    · exact ⟨d.best, hmem, rfl⟩
  · rw [hsecond, List.head?_eq_none_iff, ← List.length_eq_zero_iff, ← List.length_eq_zero_iff,
      ← length_of_mapM hresults]
    have hlength := hperm.length_eq
    simp only [List.length_cons] at hlength
    omega
  · obtain ⟨remaining, rfl⟩ := List.head?_eq_some_iff.1 (hsecond.symm.trans hs)
    have hremaining := (List.pairwise_cons.1 hsorted).2
    exact ⟨remaining, hranking, (List.pairwise_cons.1 hremaining).1⟩
  · exact (d.best.fields_secondBest _).trans rfl

def verbatim : Grammar where
  name := "verbatim"
  aliases := ["raw"]
  emitTokens := some ([.code] : List TreeStep)

def lettersAndVerbatim : List Registry.Change :=
  [.register "letters" (.ok letters), .register "verbatim" (.ok verbatim)]

theorem letters_before_plaintext : ∃ h d second, ofChanges {} lettersAndVerbatim = .ok h ∧
    h.detect "cab" (some ["RAW", "unknown", "Letters"]) = .ok d ∧
    d.best.language = some "Letters" ∧ d.best.relevance = 1 ∧
    d.secondBest = some second ∧ second.language = none ∧
    ∃ results others, (h.candidates (some ["RAW", "unknown", "Letters"])).mapM (fun name ↦
        h.highlightWith (h.languagesFor "cab") name "cab" true none) = .ok results ∧
      (∀ r ∈ results, r.relevance ≤ 1) ∧
      Ranking.rank h.registry.supersetOf? standing (.plaintext "cab" :: results) =
        d.best :: second :: others ∧
      ∀ r ∈ others, r.relevance ≤ second.relevance := by
  have hevaluated : (ofChanges {} lettersAndVerbatim).toOption.map (fun h ↦
      (h.detect "cab" (some ["RAW", "unknown", "Letters"])).toOption.map fun d ↦
        (d.best.language, d.best.relevance, d.secondBest.map HighlightResult.language)) =
      some (some (some "Letters", 1, some none)) := by
    cbv
  obtain ⟨h, hh, hdetected⟩ := eq_ok_of_map hevaluated
  obtain ⟨d, hd, hvalues⟩ := eq_ok_of_map hdetected
  obtain ⟨hlanguage, hvalues⟩ := Prod.mk.inj hvalues
  obtain ⟨hrelevance, hsecond⟩ := Prod.mk.inj hvalues
  obtain ⟨second, hsecond, hplain⟩ := Option.map_eq_some_iff.1 hsecond
  obtain ⟨-, results, hresults, -, hle, -, -, -, hnext, -⟩ := detection_picks_maximum hd
  obtain ⟨others, hranking, hothers⟩ := hnext second hsecond
  rw [settings_ofChanges hh] at hresults
  exact ⟨h, d, second, hh, hd, hlanguage, hrelevance, hsecond, hplain, results, others, hresults,
    fun r hr ↦ hrelevance ▸ hle r hr, hranking, hothers⟩

end Highlighter

end SyntaxHighlight
