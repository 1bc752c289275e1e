import Mathlib
import SyntaxHighlight.Proofs.Dictionary
import SyntaxHighlight.Proofs.Grammar.Independence
import SyntaxHighlight.Proofs.Highlight.History
import SyntaxHighlight.Proofs.Highlight.Parallel
import SyntaxHighlight.Proofs.Highlight.Registry
import SyntaxHighlight.Proofs.Tree.Hosted

/-!
The names to write in place of scopes. A grammar may carry any: they tell what its own scopes are
called, and nothing else depends on them.
-/
namespace SyntaxHighlight

/-- The registration, with other names for the scopes of its grammar if it has the number. -/
def Registration.withNames (scoring : KeywordScoring) (number : Nat) (names : Dictionary String)
    (registration : Registration) : Registration :=
  if registration.number = number then
    { registration with
      grammar := registration.grammar.withNames names
      compiled := Thunk.mk fun _ ↦ (registration.grammar.withNames names).compile scoring }
  else registration

namespace Registry

/-- The registry in which the grammar that was registered with a number carries other names. -/
def withNames (r : Registry) (number : Nat) (names : Dictionary String) : Registry :=
  { r with languages := r.languages.map (Registration.withNames r.scoring number names) }

variable {r : Registry} (number : Nat) (names : Dictionary String) (name : String)

theorem find?_withNames : (r.withNames number names).find? name =
    (r.find? name).map (Registration.withNames r.scoring number names) := by
  simp only [find?, resolve?, withNames, Dictionary.get?_map]
  cases r.languages.get? (Unicode.lowercase name) with
  | some registration => rfl
  | none => cases r.aliases.get? (Unicode.lowercase name) <;> rfl

theorem names_withNames : (r.withNames number names).names = r.names := by
  simp [Registry.names, Dictionary.names, withNames, Dictionary.map]

theorem isKnown_withNames : (r.withNames number names).isKnown name = r.isKnown name := by
  rw [isKnown, find?_withNames, Option.isSome_map, isKnown]

theorem autodetects_withNames :
    (r.withNames number names).autodetects name = r.autodetects name := by
  simp only [autodetects, grammar?, find?_withNames]
  cases r.find? name with
  | none => rfl
  | some registration =>
    simp only [Option.map_some, Registration.withNames]
    split <;> rfl

theorem supersetOf?_withNames :
    (r.withNames number names).supersetOf? name = r.supersetOf? name := by
  simp only [supersetOf?, grammar?, find?_withNames]
  cases r.find? name with
  | none => rfl
  | some registration =>
    simp only [Option.map_some, Registration.withNames]
    split <;> rfl

variable {number name}

theorem load_withNames_of_ne
    (hne : ∀ registration, r.find? name = some registration → registration.number ≠ number) :
    (r.withNames number names).load name = r.load name := by
  have hfind : (r.withNames number names).find? name = r.find? name := by
    rw [find?_withNames]
    cases hfind : r.find? name with
    | none => rfl
    | some registration =>
      rw [Option.map_some, Registration.withNames, if_neg (hne registration hfind)]
  rw [load, hfind]
  rfl

theorem load_withNames {cg : CompiledGrammar} (hr : r.Compiled)
    (hload : r.load name = .ok ⟨.registered number, cg⟩) :
    (r.withNames number names).load name = .ok ⟨.registered number, cg.withNames names⟩ := by
  unfold load at hload
  split at hload
  · cases hload
  · rename_i registration hfind
    split at hload
    · rename_i hcompiled
      cases hload
      have hnames := Grammar.compile_withNames registration.grammar r.scoring names
      rw [← hr.get_of_find? hfind, hcompiled] at hnames
      rw [load, find?_withNames, hfind, Option.map_some, Registration.withNames, if_pos rfl]
      simp only [Thunk.get]
      rw [hnames]
      rfl
    · split at hload
      · unfold plaintext at hload
        split at hload <;> cases hload
      · cases hload

end Registry

/-- What a scan hands back, its tree without the names that its scopes go by. -/
structure HostOutput where
  children : List HostTree
  relevance : Nat
  continuation : Continuation

def HostOutput.under (names : Dictionary String) (o : HostOutput) : ScanOutput :=
  ⟨.scope none (HostTree.underAll names o.children), o.relevance, o.continuation⟩

def ScanOutput.hosted (o : ScanOutput) : HostOutput :=
  ⟨o.tree.hosted, o.relevance, o.continuation⟩

/-- A result whose tree is marked as an embedded one. -/
def HighlightResult.marked (r : HighlightResult) : HighlightResult :=
  { r with
    language := none
    tree := match r.language with
      | some name => (r.tree.rename (some ("language:" ++ name))).marked
      | none => r.tree.marked }

def Languages.marked (l : Languages) : Languages where
  isKnown := l.isKnown
  highlight name code c := HighlightResult.marked <$> l.highlight name code c
  detect code names := HighlightResult.marked <$> l.detect code names

/-- Scans of which the second writes names in place of scopes and the first marks what is
embedded. -/
def Leeway.naming (names : Dictionary String) : Leeway where
  excused _ := False
  tree b b' := b' = b.under names
  relevance := (· = ·)
  result r r' := r = r'.marked

theorem TreeBuilder.under_embed_marked (names : Dictionary String) (b : TreeBuilder)
    (r : HighlightResult) :
    (b.embed r.marked.tree r.marked.language).under names =
      (b.under names).embed r.tree r.language := by
  cases hlanguage : r.language <;> simp [HighlightResult.marked, embed, hlanguage]

namespace ScanSetting

def named (key : GrammarId) (cg : CompiledGrammar) (options : ScanOptions) (text : Text)
    (names : Dictionary String) (l : Languages) : ScanSetting :=
  ⟨⟨key, cg.withNames names⟩, options, l, text⟩

variable {key : GrammarId} {cg : CompiledGrammar} {options : ScanOptions} {text : Text}
  {names : Dictionary String} {l l' : Languages}

theorem naming_parallel (hemit : cg.emitTokens = none)
    (hl : ∀ i sub, (cg.mode i).subLanguage = some sub →
      (Leeway.naming names).Embeds l.marked l' sub) :
    (named key cg options text .empty l.marked).Parallel (.naming names)
      (named key cg options text names l') where
  id := rfl
  mode _ := rfl
  caseInsensitive := rfl
  emitTokens := rfl
  text := rfl
  maxIterations := rfl
  safeMode := .inl rfl
  ignoreIllegals := .inl rfl
  empty := rfl
  zero := rfl
  addText := by
    rintro b _ text rfl
    exact (b.under_addText names text).symm
  openScope := by
    rintro b _ scope rfl
    exact (b.under_openScope names scope).symm
  closeScope := by
    rintro b _ rfl
    exact (b.under_closeScope names).symm
  emit emission hemission := by
    cases hemit.symm.trans hemission
  close := by
    rintro n _ k rfl
    rfl
  hit := by
    rintro n _ hits k rfl
    rfl
  embed := by
    rintro b _ _ r rfl rfl
    exact (b.under_embed_marked names r).symm
  add := by
    rintro n _ _ r rfl rfl
    rfl
  continuation := by
    rintro _ r rfl
    rfl
  languages := hl

theorem run_named (hemit : cg.emitTokens = none)
    (hl : ∀ i sub, (cg.mode i).subLanguage = some sub →
      (Leeway.naming names).Embeds l.marked l' sub) (c : Option Continuation) :
    (named key cg options text names l').run c =
      HostOutput.under names <$> ScanOutput.hosted <$>
        (named key cg options text .empty l.marked).run c := by
  have hparallel : (named key cg options text .empty l.marked).Parallel _ _ :=
    naming_parallel hemit hl
  have houtput (o o' : ScanOutput) (ho : (Leeway.naming names).Outputs o o') :
      (HostOutput.under names ∘ ScanOutput.hosted) o = id o' := by
    obtain ⟨⟨b, _, rfl, htree, htree'⟩, hrelevance, hcontinuation⟩ := ho
    simp only [Function.comp_apply, HostOutput.under, ScanOutput.hosted]
    rw [htree, ← b.toTree_under names, ← htree', hrelevance, ← hcontinuation]
    rfl
  have hequal := ((hparallel.agree_run c).map houtput).eq
  rw [← comp_map, hequal, id_map]

end ScanSetting

namespace Highlighter

def withNames (h : Highlighter) (number : Nat) (names : Dictionary String) : Highlighter :=
  { h with registry := h.registry.withNames number names }

/-- The languages that texts in a grammar may embed, and those that they may embed in turn. -/
inductive LeadsTo (h : Highlighter) (cg : CompiledGrammar) : String → Prop
  | embeds {i : Nat} {sub : SubLanguage} {name : String} :
      (cg.mode i).subLanguage = some sub → h.Offers name sub → LeadsTo h cg name
  | further {name other : String} {loaded : LoadedGrammar} {i : Nat} {sub : SubLanguage} :
      LeadsTo h cg name → h.registry.load name = .ok loaded →
      (loaded.grammar.mode i).subLanguage = some sub → h.Offers other sub → LeadsTo h cg other

variable {h : Highlighter} {number : Nat} {cg : CompiledGrammar}

/-- No language that a grammar leads to is the one that was registered with a number. -/
def NeverLeadsTo (h : Highlighter) (cg : CompiledGrammar) (number : Nat) : Prop :=
  ∀ name registration, h.LeadsTo cg name → h.registry.find? name = some registration →
    registration.number ≠ number

theorem parallel_withNames (halone : h.NeverLeadsTo cg number) (names : Dictionary String) :
    h.Parallel False (· = ·) (h.LeadsTo cg) (h.withNames number names) where
  names := Registry.names_withNames number names
  isKnown := Registry.isKnown_withNames number names
  supersetOf := funext (Registry.supersetOf?_withNames number names)
  candidates subset := by
    have hautodetects : (h.withNames number names).registry.autodetects = h.registry.autodetects :=
      funext (Registry.autodetects_withNames number names)
    have hnames : (h.withNames number names).registry.names = h.registry.names :=
      Registry.names_withNames number names
    simp only [Highlighter.candidates, hautodetects, hnames]
    rfl
  load name hname := by
    have hload := Registry.load_withNames_of_ne names (halone name · hname)
    exact hload ▸ .refl (fun _ ↦ rfl) _
  within name loaded i sub hname hload hsub :=
    ⟨fun other ↦ .further hname hload hsub, fun _ _ _ _ ↦ id⟩
  classPrefix := rfl
  maxIterations := rfl
  autodetectIgnoreIllegals := rfl
  safeMode := .inl rfl
  strict := False.elim
  refl _ := rfl
  add := by
    rintro n _ k _ rfl rfl
    rfl
  hit := by
    rintro n _ hits k rfl
    rfl

theorem embeds_marked (halone : h.NeverLeadsTo cg number) (names : Dictionary String)
    (code : String) {i : Nat} {sub : SubLanguage} (hsub : (cg.mode i).subLanguage = some sub) :
    (Leeway.naming names).Embeds (h.languagesFor code).marked
      ((h.withNames number names).languagesFor code) sub := by
  have p := parallel_withNames halone names
  have hembeds := p.languagesFor code ⟨fun name ↦ .embeds hsub, fun _ _ _ _ ↦ id⟩
  have hmarked {x x' : Except HighlightError HighlightResult}
      (hx : Agree ((Leeway.weighing (Pardons False) (· = ·)).excused ∘ .embedded)
        (HighlightResult.Weighed (· = ·)) x x') :
      Agree ((Leeway.naming names).excused ∘ .embedded) (Leeway.naming names).result
        (HighlightResult.marked <$> x) x' := by
    cases hx with
    | ok hr => exact .ok (congrArg _ hr.eq_of_eq.symm)
    | error err => exact .error err
    | excused y herr => exact herr.1.elim
  cases sub with
  | fixed name =>
    obtain ⟨hknown, hresults⟩ := hembeds
    exact ⟨hknown, fun hname text c ↦ hmarked (hresults hname text c)⟩
  | detect names => exact fun text ↦ hmarked (hembeds text)

end Highlighter

end SyntaxHighlight
