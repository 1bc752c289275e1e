import Mathlib
import SyntaxHighlight.Proofs.Highlight.History
import SyntaxHighlight.Proofs.Highlight.Parallel

/-! How many hits of a word count changes the relevance alone, unless a language is chosen by it. -/
namespace SyntaxHighlight

def SubLanguage.isFixed : SubLanguage → Bool
  | .fixed _ => true
  | .detect _ => false

namespace CompiledGrammar

/-- No mode leaves it to the relevance which language it embeds. -/
def NamesLanguages (cg : CompiledGrammar) : Prop :=
  ∀ i names, (cg.mode i).subLanguage ≠ some (.detect names)

def namesLanguages (cg : CompiledGrammar) : Bool :=
  (cg.modes.toList.map CompiledMode.subLanguage).all fun sub ↦ sub.all SubLanguage.isFixed

theorem NamesLanguages.of_modes {cg : CompiledGrammar} (h : cg.namesLanguages = true) :
    cg.NamesLanguages := by
  intro i names hsub
  have hfixed := List.all_eq_true.1 h _ (subLanguage_mem hsub)
  cases hfixed

end CompiledGrammar

theorem Grammar.plaintext_namesLanguages {scoring : KeywordScoring} {cg : CompiledGrammar}
    (h : plaintext.compile scoring = .ok cg) : cg.NamesLanguages := by
  have hevaluated : (plaintext.compile scoring).toOption.map CompiledGrammar.namesLanguages =
      some true := by
    cbv
  obtain ⟨_, hcg, hnames⟩ := eq_ok_of_map hevaluated
  cases h.symm.trans hcg
  exact .of_modes hnames

namespace Highlighter

variable {h : Highlighter}

/-- No language of a highlighter leaves it to the relevance which one it embeds. -/
def NamesLanguages (h : Highlighter) : Prop :=
  ∀ name registration cg, h.registry.find? name = some registration →
    registration.grammar.compile h.registry.scoring = .ok cg → cg.NamesLanguages

theorem NamesLanguages.within (hnames : h.NamesLanguages) (hb : h.registry.Built)
    {W : Nat → Nat → Prop} {name : String} {loaded : LoadedGrammar} {i : Nat} {sub : SubLanguage}
    (hload : h.registry.load name = .ok loaded)
    (hsub : (loaded.grammar.mode i).subLanguage = some sub) : h.Within W (fun _ ↦ True) sub := by
  have hloaded : loaded.grammar.NamesLanguages := by
    obtain ⟨registration, hfind, hcg⟩ | hcg := hb.compiled.load_eq_ok hload
    · exact hnames name registration _ hfind hcg
    · exact Grammar.plaintext_namesLanguages hcg
  refine ⟨fun _ _ ↦ trivial, ?_⟩
  rintro names rfl
  exact absurd hsub (hloaded i names)

theorem parallel_withMaxHits (hb : h.registry.Built) (hnames : h.NamesLanguages) {cap : Nat}
    (hcap : h.settings.maxKeywordHits ≤ cap) :
    h.Parallel False (· ≤ ·) (fun _ ↦ True) (h.withMaxHits cap) where
  names := rfl
  isKnown _ := rfl
  supersetOf := rfl
  candidates _ := rfl
  load _ _ := .refl (fun _ ↦ rfl) _
  within _ _ _ _ _ := hnames.within hb
  classPrefix := rfl
  maxIterations := rfl
  autodetectIgnoreIllegals := rfl
  safeMode := .inl rfl
  strict := False.elim
  refl := Nat.le_refl
  add := Nat.add_le_add
  hit := by
    intro n n' hits k hn
    show (if hits ≤ h.settings.maxKeywordHits then n + k else n) ≤
      if hits ≤ cap then n' + k else n'
    split <;> split <;> omega

variable {settings : Settings} {changes : List Registry.Change}

theorem NamesLanguages.of_entries
    (hentries : (h.registry.languages.entries.all fun entry ↦
      (entry.2.grammar.compile h.registry.scoring).toOption.all
        CompiledGrammar.namesLanguages) = true) : h.NamesLanguages := by
  intro name registration cg hfind hcg
  obtain ⟨key, hkey⟩ := Registry.mem_of_find? hfind
  have hentry := List.all_eq_true.1 hentries _ hkey
  rw [hcg] at hentry
  exact .of_modes hentry

end Highlighter

end SyntaxHighlight
