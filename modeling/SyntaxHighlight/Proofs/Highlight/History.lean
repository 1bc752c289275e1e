import SyntaxHighlight.Highlight.Highlighter
import SyntaxHighlight.Proofs.Agreement
import SyntaxHighlight.Proofs.Grammar.Independence
import SyntaxHighlight.Proofs.Highlight.Registry

/-!
Highlighters by what has been done to their languages. The same changes under other settings come to
the same languages.
-/
namespace SyntaxHighlight

namespace Registry

/-- What an application may do to the languages of a highlighter. -/
inductive Change where
  | register (name : String) (made : Except GrammarError Grammar)
  | unregister (name : String)
  | registerAliases (names : List String) (language : String)

def change (r : Registry) : Change → Except GrammarError Registry
  | .register name made => r.register name made
  | .unregister name => pure (r.unregister name)
  | .registerAliases names language => pure (r.registerAliases names language)

variable {r r' : Registry}

theorem Built.change {c : Change} (hr : r.Built) (h : r.change c = .ok r') : r'.Built := by
  cases c with
  | register name made => exact .register hr h
  | unregister name =>
    cases h
    exact .unregister name hr
  | registerAliases names language =>
    cases h
    exact .registerAliases names language hr

theorem Built.changes {cs : List Change} (hr : r.Built) (h : cs.foldlM Registry.change r = .ok r') :
    r'.Built := by
  induction cs generalizing r with
  | nil =>
    cases h
    exact hr
  | cons c cs ih =>
    rw [List.foldlM_cons] at h
    obtain ⟨r₁, hr₁, h⟩ := bind_eq_ok.1 h
    exact ih (hr.change hr₁) h

/-! Where a strict registry does not fail, a lenient one has the same languages. -/

def withSafeMode (r : Registry) (safeMode : Bool) : Registry := { r with safeMode }

/-- A strict registry, and the same one that may be lenient. -/
structure Relaxes (safeMode : Bool) (r r' : Registry) : Prop where
  strict : r.safeMode = false
  eq : r' = r.withSafeMode safeMode

theorem agree_change_withSafeMode {safeMode : Bool} (h : Relaxes safeMode r r') (c : Change) :
    Agree (fun _ ↦ True) (Relaxes safeMode) (r.change c) (r'.change c) := by
  obtain ⟨hstrict, rfl⟩ := h
  cases c with
  | register name made =>
    cases made with
    | ok grammar => exact .ok ⟨hstrict, rfl⟩
    | error cause =>
      simp only [change, register, hstrict]
      exact .excused _ trivial
  | unregister name => exact .ok ⟨hstrict, rfl⟩
  | registerAliases names language => exact .ok ⟨hstrict, rfl⟩

theorem agree_load_withSafeMode (hstrict : r.safeMode = false) (safeMode : Bool) (name : String) :
    Agree (fun _ ↦ True) (· = ·) (r.load name) ((r.withSafeMode safeMode).load name) := by
  have hfind : (r.withSafeMode safeMode).find? name = r.find? name := rfl
  simp only [load, hfind, hstrict]
  cases r.find? name with
  | none => exact .error _
  | some registration =>
    dsimp only
    cases registration.compiled.get with
    | ok grammar => exact .ok rfl
    | error cause => exact .excused _ trivial

/-! How many hits of a word count makes no difference to the languages. -/

def withMaxHits (r : Registry) (maxHits : Nat) : Registry :=
  { r with scoring := r.scoring.withMaxHits maxHits }

theorem agree_change_withMaxHits {maxHits : Nat} (h : r' = r.withMaxHits maxHits) (c : Change) :
    Agree (fun _ ↦ False) (fun r r' ↦ r' = r.withMaxHits maxHits) (r.change c) (r'.change c) := by
  cases h
  cases c with
  | register name made =>
    simp only [change, register, withMaxHits, Grammar.compile_withMaxHits]
    cases made with
    | ok grammar => exact .ok rfl
    | error cause =>
      dsimp only
      split
      · exact .ok rfl
      · exact .error _
  | unregister name => exact .ok rfl
  | registerAliases names language => exact .ok rfl

end Registry

namespace Highlighter

def ofChanges (settings : Settings) (changes : List Registry.Change) :
    Except GrammarError Highlighter :=
  (⟨·, settings⟩) <$> changes.foldlM Registry.change (ofSettings settings).registry

def withSafeMode (h : Highlighter) (safeMode : Bool) : Highlighter :=
  ⟨h.registry.withSafeMode safeMode, { h.settings with safeMode }⟩

def withMaxHits (h : Highlighter) (maxKeywordHits : Nat) : Highlighter :=
  ⟨h.registry.withMaxHits maxKeywordHits, { h.settings with maxKeywordHits }⟩

variable {settings : Settings} {changes : List Registry.Change} {h : Highlighter}

theorem ofChanges_built (hh : ofChanges settings changes = .ok h) : h.registry.Built := by
  obtain ⟨r, hr, rfl⟩ := map_eq_ok.1 hh
  exact Registry.Built.changes (.empty _ _) hr

theorem settings_ofChanges (hh : ofChanges settings changes = .ok h) : h.settings = settings := by
  obtain ⟨r, -, rfl⟩ := map_eq_ok.1 hh
  rfl

theorem ofChanges_withSafeMode (hstrict : settings.safeMode = false) (safeMode : Bool)
    (hh : ofChanges settings changes = .ok h) :
    h.registry.safeMode = false ∧
      ofChanges { settings with safeMode } changes = .ok (h.withSafeMode safeMode) := by
  obtain ⟨r, hr, rfl⟩ := map_eq_ok.1 hh
  have hchanges := Agree.foldlM (fun _ _ c hc ↦ Registry.agree_change_withSafeMode hc c) changes
    (⟨hstrict, rfl⟩ : Registry.Relaxes safeMode (ofSettings settings).registry _)
  rw [hr] at hchanges
  obtain ⟨_, hr', hrstrict, rfl⟩ := hchanges.exists_ok
  exact ⟨hrstrict, map_eq_ok.2 ⟨_, hr', rfl⟩⟩

theorem ofChanges_withMaxHits (maxKeywordHits : Nat) (hh : ofChanges settings changes = .ok h) :
    ofChanges { settings with maxKeywordHits } changes = .ok (h.withMaxHits maxKeywordHits) := by
  obtain ⟨r, hr, rfl⟩ := map_eq_ok.1 hh
  have hstart : (ofSettings { settings with maxKeywordHits }).registry =
      (ofSettings settings).registry.withMaxHits maxKeywordHits := by
    have hsubstitute := Grammar.compile_withMaxHits .plaintext settings.scoring maxKeywordHits
    unfold ofSettings Registry.withMaxHits
    dsimp only
    rw [← hsubstitute]
    rfl
  have hchanges := Agree.foldlM (fun _ _ c hc ↦ Registry.agree_change_withMaxHits hc c) changes
    hstart
  rw [hr] at hchanges
  obtain ⟨_, hr', rfl⟩ := hchanges.exists_ok
  exact map_eq_ok.2 ⟨_, hr', rfl⟩

def verbs : Grammar where
  name := "verbs"
  keywords := some (.scoped ⟨[("$pattern", .text "do"), ("_verb", .items ["do|1"])]⟩)

def quoting : Grammar where
  name := "quoting"
  contains := [.inline
    { scope := some (.name "quote"), begin := some (.source "<"), ending := some (.source ">"),
      subLanguage := some (.fixed "verbs") }]

def quotingChanges : List Registry.Change :=
  [.register "verbs" (.ok verbs), .register "quoting" (.ok quoting)]

end Highlighter

end SyntaxHighlight
