import SyntaxHighlight.Proofs.Highlight.RoundTrip
import SyntaxHighlight.Proofs.Scan.Failure

/-!
In safe mode a text in a known language is always answered. What goes wrong is dealt with where it
happens: a grammar that cannot be made or compiled is plain text, and a scan that stops early leaves
its own text as it is, also where the text is embedded in another one.
-/
namespace SyntaxHighlight

theorem Grammar.plaintext_compiles (scoring : KeywordScoring) :
    ∃ cg, plaintext.compile scoring = .ok cg := by
  have hok : (plaintext.compile scoring).isOk = true := by
    cbv
  exact ⟨_, eq_ok_of_isOk hok default⟩

namespace Registry

variable {r : Registry}

theorem register_error (hsafe : r.safeMode = true) (name : String) (cause : GrammarError) :
    r.register name (.error cause) = r.register name (.ok .plaintext) := by
  simp only [register, hsafe, if_true]

theorem exists_register (hsafe : r.safeMode = true) (name : String)
    (made : Except GrammarError Grammar) :
    ∃ r', r.register name made = .ok r' ∧ r'.safeMode = true := by
  cases made with
  | ok grammar => exact ⟨_, rfl, hsafe⟩
  | error cause =>
    rw [register_error hsafe]
    exact ⟨_, rfl, hsafe⟩

theorem Compiled.exists_load (hr : r.Compiled) (hsafe : r.safeMode = true) {name : String}
    (h : r.isKnown name = true) : ∃ loaded, r.load name = .ok loaded := by
  obtain ⟨registration, hfind⟩ := Option.isSome_iff_exists.1 h
  rw [load, hfind]
  dsimp only
  split
  · exact ⟨_, rfl⟩
  · obtain ⟨cg, hcg⟩ := Grammar.plaintext_compiles r.scoring
    rw [if_pos hsafe, plaintext, hr.substitute, hcg]
    exact ⟨_, rfl⟩

theorem isKnown_of_autodetects {name : String} (h : r.autodetects name = true) :
    r.isKnown name = true := by
  obtain ⟨grammar, hgrammar, -⟩ := (Option.any_eq_true _ _).1 h
  obtain ⟨registration, hfind, -⟩ := Option.map_eq_some_iff.1 hgrammar
  rw [isKnown, hfind]
  rfl

end Registry

/-- A text as it is, in a language, with the reason why it was not scanned to its end: illegal text
or another error. -/
structure HighlightResult.FellBack (language code : String) (r : HighlightResult) : Prop where
  tree : r.tree = .leaf code
  value : r.value = Html.escape code
  relevance : r.relevance = 0
  continuation : r.continuation = none
  reason : r.illegal = true ∧ r.illegalBy.isSome = true ∧ r.errorRaised = none ∨
    r.illegal = false ∧ r.illegalBy = none ∧ r.errorRaised.isSome = true
  language : r.language = some language
  code : r.code = code

namespace Highlighter

/-- What is made of a text in a language: what its scan has come to, or the text as it is, if the
scan was stopped by something else than the failure of an embedded language. -/
inductive Answers (h : Highlighter) (l : Languages) (language code : String)
    (ignoreIllegals : Bool) (c : Option Continuation) (r : HighlightResult) : Prop
  | finished {loaded : LoadedGrammar} {output : ScanOutput} :
      h.registry.load language = .ok loaded →
      (ScanSetting.mk loaded (h.scanOptions ignoreIllegals) l (.ofString code)).run c =
        .ok output →
      r = h.scanned language code output →
      r.illegal = false ∧ r.illegalBy = none ∧ r.errorRaised = none →
      Answers h l language code ignoreIllegals c r
  | stopped {loaded : LoadedGrammar} {err : ScanError} :
      h.registry.load language = .ok loaded →
      (ScanSetting.mk loaded (h.scanOptions ignoreIllegals) l (.ofString code)).run c =
        .error err →
      (∀ cause, err ≠ .embedded cause) → r.FellBack language code →
      Answers h l language code ignoreIllegals c r

variable {h : Highlighter}

theorem exists_settle (hset : h.settings.safeMode = true) (language code : String)
    (err : ScanError) : ∃ r, h.settle language code err = .ok r ∧ r.FellBack language code := by
  cases err with
  | illegal message offset mode =>
    exact ⟨_, rfl, rfl, rfl, rfl, rfl, .inl ⟨rfl, rfl, rfl⟩, rfl, rfl⟩
  | _ =>
    -- All other errors come to the same in safe mode.
    simp only [settle, hset, if_true]
    exact ⟨_, rfl, rfl, rfl, rfl, rfl, .inr ⟨rfl, rfl, rfl⟩, rfl, rfl⟩

section

variable {l : Languages} (hb : h.registry.Built)
  (hsafe : h.registry.safeMode = true) (hset : h.settings.safeMode = true)
  (hl : ∀ cause, ¬ l.Fails cause)
include hb hsafe hset hl

theorem highlightWith_answers {language : String} (hknown : h.registry.isKnown language = true)
    (code : String) (ignoreIllegals : Bool) (c : Option Continuation) :
    ∃ r, h.highlightWith l language code ignoreIllegals c = .ok r ∧
      h.Answers l language code ignoreIllegals c r := by
  obtain ⟨loaded, hload⟩ := hb.compiled.exists_load hsafe hknown
  rw [highlightWith, hload]
  simp only [bind, Except.bind]
  split
  · rename_i output hrun
    exact ⟨_, rfl, .finished hload hrun rfl ⟨rfl, rfl, rfl⟩⟩
  · rename_i err hrun
    obtain ⟨r, hr, hfell⟩ := exists_settle hset language code err
    refine ⟨r, hr, .stopped hload hrun (fun cause herr ↦ ?_) hfell⟩
    cases herr
    cases ScanSetting.run_stops hrun with
    | embedded hfails => exact hl cause hfails

theorem detectWith_answers (code : String) (subset : Option (List String)) :
    ∃ d, h.detectWith l code subset = .ok d ∧ ∀ r, r = d.best ∨ d.secondBest = some r →
      r = .plaintext code ∨ ∃ language, h.registry.isKnown language = true ∧
        h.Answers l language code h.settings.autodetectIgnoreIllegals none r := by
  have hknown (name : String) (hname : name ∈ h.candidates subset) :
      h.registry.isKnown name = true :=
    Registry.isKnown_of_autodetects (List.mem_filter.1 hname).2
  obtain ⟨found, hfound⟩ := exists_mapM_eq_ok fun name hname ↦
    (highlightWith_answers hb hsafe hset hl (hknown name hname) code
      h.settings.autodetectIgnoreIllegals none).imp fun _ ↦ And.left
  have hall (r : HighlightResult)
      (hr : r ∈ Ranking.rank h.registry.supersetOf? standing (.plaintext code :: found)) :
      r = .plaintext code ∨ ∃ language, h.registry.isKnown language = true ∧
        h.Answers l language code h.settings.autodetectIgnoreIllegals none r := by
    obtain rfl | hr := List.mem_cons.1 ((Ranking.rank_perm _).mem_iff.1 hr)
    · exact .inl rfl
    · obtain ⟨name, hname, hresult⟩ := exists_of_mem_mapM hfound hr
      obtain ⟨r', hr', hanswers⟩ := highlightWith_answers hb hsafe hset hl
        (hknown name hname) code h.settings.autodetectIgnoreIllegals none
      cases hresult.symm.trans hr'
      exact .inr ⟨name, hknown name hname, hanswers⟩
  have hranked : h.ranked l code subset =
      .ok (Ranking.rank h.registry.supersetOf? standing (.plaintext code :: found)) := by
    rw [ranked, hfound]
    rfl
  rw [detectWith, hranked]
  simp only [bind, Except.bind]
  split
  · refine ⟨_, rfl, fun r hr ↦ .inl ?_⟩
    obtain rfl | hr := hr
    · rfl
    · cases hr
  · rename_i best others hresults
    refine ⟨_, rfl, fun r hr ↦ hall r ?_⟩
    rw [hresults]
    obtain rfl | hr := hr
    · exact List.mem_cons_self
    · exact List.mem_cons_of_mem _ (List.mem_of_head? hr)

end

section

variable (hb : h.registry.Built) (hsafe : h.registry.safeMode = true)
  (hset : h.settings.safeMode = true)
include hb hsafe hset

/-- No language fails on a text that is embedded in another one. -/
theorem not_fails (depth : Nat) (cause : HighlightError) : ¬ (h.languages depth).Fails cause := by
  -- By induction on how deep texts may be embedded: at the bottom nothing is scanned any more.
  induction depth generalizing cause with
  | zero =>
    intro hfails
    cases hfails with
    | @highlight name text c hknown hfails =>
      have hknown : h.registry.isKnown name = true := hknown
      obtain ⟨r, hr, -⟩ := exists_settle hset name text .endlessEmbedding
      simp only [languages, hknown, if_true, hr] at hfails
      cases hfails
    | detect hfails =>
      simp only [languages, hset, if_true] at hfails
      cases hfails
  | succ depth ih =>
    intro hfails
    cases hfails with
    | @highlight name text c hknown hfails =>
      obtain ⟨r, hr, -⟩ := highlightWith_answers hb hsafe hset ih hknown text true c
      cases hfails.symm.trans hr
    | @detect text names hfails =>
      obtain ⟨d, hd, -⟩ := detectWith_answers hb hsafe hset ih text
        (if names.isEmpty then none else some names)
      have hbest : (h.languages (depth + 1)).detect text names = .ok d.best :=
        map_eq_ok.2 ⟨d, hd, rfl⟩
      cases hfails.symm.trans hbest

end

def ambiguous : Grammar where
  name := "ambiguous"
  contains := [.inline { begin := some (.source "a"), matching := some (.source "b") }]

/-- It cannot be compiled. -/
example : (ambiguous.compile default).isOk = false := by
  cbv

/-- A registry with a grammar that could not be made and one that cannot be compiled. -/
def brokenRegistry : Registry where
  safeMode := true
  scoring := default
  languages := (Dictionary.empty.insert (Unicode.lowercase "lost")
      ⟨0, .plaintext, Thunk.mk fun _ ↦ Grammar.plaintext.compile default⟩).insert
    (Unicode.lowercase "ambiguous") ⟨1, ambiguous, Thunk.mk fun _ ↦ ambiguous.compile default⟩
  next := 2

theorem brokenRegistry_built : brokenRegistry.Built :=
  .register
    (.register (.empty true default)
      (rfl : Registry.register _ "lost" (.error (.factoryFailed "lost")) = .ok _))
    (rfl : Registry.register _ "ambiguous" (.ok ambiguous) = .ok brokenRegistry)

end Highlighter

end SyntaxHighlight
