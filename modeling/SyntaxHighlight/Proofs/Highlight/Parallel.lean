import SyntaxHighlight.Highlight.Highlighter
import SyntaxHighlight.Proofs.Scan.Parallel

/-!
Two highlighters that take the same way through a text and all that is embedded in it. Their results
differ in nothing but the relevance, and one may be lenient where the other fails.
-/
namespace SyntaxHighlight

theorem CompiledGrammar.subLanguage_mem {cg : CompiledGrammar} {i : Nat} {sub : SubLanguage}
    (h : (cg.mode i).subLanguage = some sub) :
    some sub ∈ cg.modes.toList.map CompiledMode.subLanguage := by
  rw [mode] at h
  cases hi : cg.modes[i]? with
  | none =>
    rw [hi] at h
    cases h
  | some m =>
    rw [hi, Option.getD_some] at h
    exact List.mem_map.2 ⟨m, Array.mem_toList_iff.2 (Array.mem_of_getElem? hi), h⟩

/-- Results that differ in the relevance alone. -/
structure HighlightResult.Weighed (W : Nat → Nat → Prop) (r r' : HighlightResult) : Prop where
  eq : r' = { r with relevance := r'.relevance }
  relevance : W r.relevance r'.relevance

theorem HighlightResult.Weighed.refl {W : Nat → Nat → Prop} (hW : ∀ n, W n n)
    (r : HighlightResult) : Weighed W r r := ⟨rfl, hW _⟩

theorem HighlightResult.Weighed.eq_of_eq {r r' : HighlightResult} (h : Weighed (· = ·) r r') :
    r' = r := by
  rw [h.eq, ← h.relevance]

/-- Scans that write the same tree. -/
def Leeway.weighing (excused : ScanError → Prop) (W : Nat → Nat → Prop) : Leeway where
  excused
  tree := (· = ·)
  relevance := W
  result := HighlightResult.Weighed W

namespace Highlighter

/-- The languages that a text within a mode may be taken for. -/
def Offers (h : Highlighter) (name : String) : SubLanguage → Prop
  | .fixed other => other = name ∧ h.registry.isKnown name = true
  | .detect names => name ∈ h.candidates (if names.isEmpty then none else some names)

/-- A text that a mode embeds stays within some languages. Where the relevance decides which one is
taken, it has to be the same. -/
structure Within (h : Highlighter) (W : Nat → Nat → Prop) (N : String → Prop)
    (sub : SubLanguage) : Prop where
  offers : ∀ name, h.Offers name sub → N name
  relevance : ∀ names, sub = .detect names → ∀ n n', W n n' → n = n'

/-- Two highlighters that are the same as far as some languages go, where the second may be lenient
if the first is strict. Those languages embed no others. -/
structure Parallel (lenient : Prop) (W : Nat → Nat → Prop) (N : String → Prop)
    (h h' : Highlighter) : Prop where
  names : h'.registry.names = h.registry.names
  isKnown : ∀ name, h'.registry.isKnown name = h.registry.isKnown name
  supersetOf : h'.registry.supersetOf? = h.registry.supersetOf?
  candidates : ∀ subset, h'.candidates subset = h.candidates subset
  load : ∀ name, N name →
    Agree (fun _ ↦ lenient) (· = ·) (h.registry.load name) (h'.registry.load name)
  within : ∀ name loaded i sub, N name → h.registry.load name = .ok loaded →
    (loaded.grammar.mode i).subLanguage = some sub → h.Within W N sub
  classPrefix : h'.settings.classPrefix = h.settings.classPrefix
  maxIterations : h'.settings.maxIterations = h.settings.maxIterations
  autodetectIgnoreIllegals :
    h'.settings.autodetectIgnoreIllegals = h.settings.autodetectIgnoreIllegals
  safeMode : h'.settings.safeMode = h.settings.safeMode ∨ lenient
  strict : lenient → h.settings.safeMode = false
  refl : ∀ n, W n n
  add : ∀ {n n' k k'}, W n n' → W k k' → W (n + k) (n' + k')
  hit : ∀ {n n'} hits k, W n n' →
    W (if hits ≤ h.settings.maxKeywordHits then n + k else n)
      (if hits ≤ h'.settings.maxKeywordHits then n' + k else n')

/-- What a lenient scan may pass over: all but illegal text, which is dealt with otherwise. -/
def Pardons (lenient : Prop) (err : ScanError) : Prop :=
  lenient ∧ ∀ message offset mode, err ≠ .illegal message offset mode

namespace Parallel

variable {lenient : Prop} {W : Nat → Nat → Prop} {N : String → Prop} {h h' : Highlighter}
  {l l' : Languages} (p : Parallel lenient W N h h')
include p

theorem scans {excused : ScanError → Prop} (hexcused : ∀ err, Pardons lenient err → excused err)
    {ignore ignore' : Bool} (hignore : ignore' = ignore ∨
      ignore = false ∧ ∀ message offset mode, excused (.illegal message offset mode))
    {name : String} (hname : N name) {loaded : LoadedGrammar}
    (hload : h.registry.load name = .ok loaded)
    (hl : ∀ sub, h.Within W N sub → (Leeway.weighing excused W).Embeds l l' sub) (text : Text) :
    (ScanSetting.mk loaded (h.scanOptions ignore) l text).Parallel (.weighing excused W)
      (.mk loaded (h'.scanOptions ignore') l' text) where
  id := rfl
  mode _ := rfl
  caseInsensitive := rfl
  emitTokens := rfl
  text := rfl
  maxIterations := p.maxIterations
  safeMode := by
    by_cases hlenient : lenient
    · exact .inr ⟨p.strict hlenient, fun rule ↦ hexcused _ ⟨hlenient, nofun⟩⟩
    · exact .inl (p.safeMode.resolve_right hlenient)
  ignoreIllegals := hignore
  empty := rfl
  zero := p.refl 0
  addText := by
    rintro b _ text rfl
    rfl
  openScope := by
    rintro b _ scope rfl
    rfl
  closeScope := by
    rintro b _ rfl
    rfl
  emit _ _ := rfl
  close k hn := p.add hn (p.refl k)
  hit := p.hit
  embed := by
    rintro b _ r r' hr rfl
    rw [hr.eq]
    rfl
  add hr hn := p.add hn hr.relevance
  continuation hr := by rw [hr.eq]
  languages i sub hsub := hl sub (p.within name loaded i sub hname hload hsub)

theorem settle_pardoned {err : ScanError} (herr : Pardons lenient err) (language code : String) :
    ∃ cause, h.settle language code err = .error cause := by
  obtain ⟨hlenient, hlegal⟩ := herr
  cases err with
  | illegal message offset mode => exact absurd rfl (hlegal message offset mode)
  | _ =>
    simp only [settle, p.strict hlenient, Bool.false_eq_true, if_false]
    exact ⟨_, rfl⟩

theorem agree_settle (language code : String) (err : ScanError) :
    Agree (fun _ ↦ lenient) (HighlightResult.Weighed W) (h.settle language code err)
      (h'.settle language code err) := by
  have hrefl := HighlightResult.Weighed.refl p.refl
  by_cases hlenient : lenient
  · by_cases hillegal : ∃ message offset mode, err = .illegal message offset mode
    · obtain ⟨message, offset, mode, rfl⟩ := hillegal
      exact .ok (hrefl _)
    · obtain ⟨cause, hcause⟩ := p.settle_pardoned
        ⟨hlenient, fun message offset mode herr ↦ hillegal ⟨message, offset, mode, herr⟩⟩
        language code
      rw [hcause]
      exact .excused _ hlenient
  · have hsettle : h'.settle language code err = h.settle language code err := by
      unfold settle
      rw [p.safeMode.resolve_right hlenient]
    rw [hsettle]
    exact .refl hrefl _

theorem weighed_scanned (language code : String) {o o' : ScanOutput}
    (ho : (Leeway.weighing (Pardons lenient) W).Outputs o o') :
    HighlightResult.Weighed W (h.scanned language code o) (h'.scanned language code o') := by
  obtain ⟨⟨b, _, rfl, htree, htree'⟩, hrelevance, hcontinuation⟩ := ho
  refine ⟨?_, hrelevance⟩
  rw [scanned, scanned, p.classPrefix, hcontinuation, htree, htree']

theorem agree_highlightWith
    (hl : ∀ sub, h.Within W N sub → (Leeway.weighing (Pardons lenient) W).Embeds l l' sub)
    (name : String) (hname : N name) (code : String) (ignore : Bool) (c : Option Continuation) :
    Agree (fun _ ↦ lenient) (HighlightResult.Weighed W) (h.highlightWith l name code ignore c)
      (h'.highlightWith l' name code ignore c) := by
  have hload := p.load name hname
  unfold highlightWith
  cases hloaded : h.registry.load name with
  | error cause =>
    rw [hloaded] at hload
    generalize h'.registry.load name = x at hload ⊢
    cases hload with
    | error cause => exact .error _
    | excused y hlenient => exact .excused _ hlenient
  | ok loaded =>
    rw [hloaded] at hload
    obtain ⟨_, hload', rfl⟩ := hload.exists_ok
    rw [hload']
    have hrun := (p.scans (fun _ ↦ id) (.inl (rfl : ignore = ignore)) hname hloaded hl
      (.ofString code)).agree_run c
    simp only [bind, Except.bind]
    generalize (ScanSetting.mk loaded (h.scanOptions ignore) l (.ofString code)).run c = x at hrun ⊢
    generalize (ScanSetting.mk loaded (h'.scanOptions ignore) l' (.ofString code)).run c = x' at hrun ⊢
    cases hrun with
    | ok ho => exact .ok (p.weighed_scanned name code ho)
    | error err => exact p.agree_settle name code err
    | excused x' herr =>
      obtain ⟨cause, hcause⟩ := p.settle_pardoned herr name code
      dsimp only
      rw [hcause]
      exact .excused _ herr.1

theorem agree_detectWith (hW : ∀ n n', W n n' → n = n')
    (hl : ∀ sub, h.Within W N sub → (Leeway.weighing (Pardons lenient) W).Embeds l l' sub)
    (code : String) {subset : Option (List String)} (hN : ∀ name ∈ h.candidates subset, N name) :
    Agree (fun _ ↦ lenient) (· = ·) (h.detectWith l code subset)
      (h'.detectWith l' code subset) := by
  have hranked : Agree (fun _ ↦ lenient) (· = ·) (h.ranked l code subset)
      (h'.ranked l' code subset) := by
    simp only [ranked, p.candidates, p.supersetOf, p.autodetectIgnoreIllegals]
    refine Agree.bind (R := (· = ·)) (.mapM fun name hname ↦ ?_) ?_
    · refine (p.agree_highlightWith hl name (hN name hname) code _ none).mono (fun _ ↦ id) ?_
      intro r r' hr
      exact (HighlightResult.Weighed.eq_of_eq ⟨hr.eq, hW _ _ hr.relevance⟩).symm
    · rintro results _ rfl
      exact .ok rfl
  refine hranked.bind ?_
  rintro results _ rfl
  exact .refl (fun _ ↦ rfl) _

theorem languages (depth : Nat) {sub : SubLanguage} (hsub : h.Within W N sub) :
    (Leeway.weighing (Pardons lenient) W).Embeds (h.languages depth) (h'.languages depth) sub := by
  have hpardon (cause : HighlightError) (hlenient : lenient) :
      (Leeway.weighing (Pardons lenient) W).excused (.embedded cause) := ⟨hlenient, nofun⟩
  have hknown (depth : Nat) (name : String) :
      (h'.languages depth).isKnown name = (h.languages depth).isKnown name := by
    cases depth <;> exact p.isKnown name
  -- By induction on how deep texts may be embedded. At the bottom a strict highlighter fails.
  induction depth generalizing sub with
  | zero =>
    cases sub with
    | fixed name =>
      refine ⟨hknown 0 name, fun _ text c ↦ ?_⟩
      simp only [Highlighter.languages, p.isKnown]
      split
      · exact (p.agree_settle name text .endlessEmbedding).mono hpardon fun _ _ ↦ id
      · exact .error _
    | detect names =>
      intro text
      simp only [Highlighter.languages]
      by_cases hlenient : lenient
      · rw [p.strict hlenient]
        exact .excused _ (hpardon _ hlenient)
      · rw [p.safeMode.resolve_right hlenient]
        exact .refl (HighlightResult.Weighed.refl p.refl) _
  | succ depth ih =>
    cases sub with
    | fixed name =>
      refine ⟨hknown (depth + 1) name, fun hname text c ↦ ?_⟩
      have hN := hsub.offers name ⟨rfl, hname⟩
      exact (p.agree_highlightWith (fun _ ↦ ih) name hN text true c).mono hpardon fun _ _ ↦ id
    | detect names =>
      intro text
      have hdetect := p.agree_detectWith (hsub.relevance names rfl) (fun _ ↦ ih) text hsub.offers
      refine Agree.map (hdetect.mono hpardon fun _ _ ↦ id) ?_
      rintro d _ rfl
      exact .refl p.refl _

theorem languagesFor (code : String) {sub : SubLanguage} (hsub : h.Within W N sub) :
    (Leeway.weighing (Pardons lenient) W).Embeds (h.languagesFor code) (h'.languagesFor code)
      sub := by
  have hdepth : h'.embeddingDepth code = h.embeddingDepth code := by
    rw [embeddingDepth, p.names, embeddingDepth]
  rw [Highlighter.languagesFor, Highlighter.languagesFor, hdepth]
  exact p.languages _ hsub

end Parallel

end Highlighter

end SyntaxHighlight
