import SyntaxHighlight.Highlight.Registry
import SyntaxHighlight.Proofs.Dictionary
import SyntaxHighlight.Proofs.Outcome

/-! What registries know: each language comes with the compiled form of its own grammar. -/
namespace SyntaxHighlight

namespace Registry

/-- A registry that has come about by registering languages and removing them again. -/
inductive Built : Registry → Prop
  | empty (safeMode : Bool) (scoring : KeywordScoring) : Built { safeMode, scoring }
  | register {r r' : Registry} {name : String} {made : Except GrammarError Grammar} :
      Built r → r.register name made = .ok r' → Built r'
  | unregister {r : Registry} (name : String) : Built r → Built (r.unregister name)
  | registerAliases {r : Registry} (names : List String) (language : String) :
      Built r → Built (r.registerAliases names language)

/-- Each language comes with its compiled grammar, and the plain one stands by. -/
structure Compiled (r : Registry) : Prop where
  languages : ∀ entry ∈ r.languages.entries,
    entry.2.compiled.get = entry.2.grammar.compile r.scoring
  substitute : r.substitute.get = Grammar.plaintext.compile r.scoring

theorem Compiled.insert {r : Registry} (hr : r.Compiled) (key : String) (grammar : Grammar)
    (aliases : Dictionary String) :
    Compiled { r with
      languages := r.languages.insert key
        ⟨r.next, grammar, Thunk.mk fun _ ↦ grammar.compile r.scoring⟩
      aliases
      next := r.next + 1 } := by
  refine ⟨fun entry hentry ↦ ?_, hr.substitute⟩
  obtain rfl | hentry := Dictionary.mem_insert hentry
  · rfl
  · exact hr.languages entry hentry

theorem Compiled.register {r r' : Registry} {name : String} {made : Except GrammarError Grammar}
    (hr : r.Compiled) (h : r.register name made = .ok r') : r'.Compiled := by
  unfold Registry.register at h
  cases made with
  | ok grammar =>
    cases h
    exact hr.insert ..
  | error cause =>
    dsimp only at h
    split at h
    · cases h
      exact hr.insert ..
    · cases h

theorem Built.compiled {r : Registry} (h : Built r) : r.Compiled := by
  induction h with
  | empty safeMode scoring => exact ⟨by simp [Dictionary.empty], rfl⟩
  | register _ hregister ih => exact ih.register hregister
  | unregister name _ ih =>
    exact ⟨fun entry h ↦ ih.languages entry (Dictionary.mem_erase h), ih.substitute⟩
  | registerAliases names language _ ih => exact ⟨ih.languages, ih.substitute⟩

variable {r : Registry} {name : String}

theorem mem_of_find? {registration : Registration} (h : r.find? name = some registration) :
    ∃ key, (key, registration) ∈ r.languages.entries := by
  unfold find? resolve? at h
  split at h
  · rename_i hlanguage
    cases h
    exact ⟨_, Dictionary.mem_of_get? hlanguage⟩
  · obtain ⟨key, -, hlanguage⟩ := Option.bind_eq_some_iff.1 h
    exact ⟨key, Dictionary.mem_of_get? hlanguage⟩

theorem Compiled.get_of_find? {registration : Registration} (hr : r.Compiled)
    (h : r.find? name = some registration) :
    registration.compiled.get = registration.grammar.compile r.scoring := by
  obtain ⟨key, hkey⟩ := mem_of_find? h
  exact hr.languages _ hkey

theorem load_of_not_isKnown (h : r.isKnown name = false) :
    r.load name = .error (.unknownLanguage name) := by
  have hfind : r.find? name = none := by
    simpa [isKnown] using h
  rw [load, hfind]
  rfl

theorem isKnown_of_load {loaded : LoadedGrammar} (h : r.load name = .ok loaded) :
    r.isKnown name = true := by
  refine Bool.of_not_eq_false fun hunknown ↦ ?_
  rw [load_of_not_isKnown hunknown] at h
  cases h

theorem Compiled.load_eq_ok {loaded : LoadedGrammar} (hr : r.Compiled)
    (h : r.load name = .ok loaded) :
    (∃ registration, r.find? name = some registration ∧
        registration.grammar.compile r.scoring = .ok loaded.grammar) ∨
      Grammar.plaintext.compile r.scoring = .ok loaded.grammar := by
  unfold load at h
  split at h
  · cases h
  · rename_i registration hfind
    split at h
    · rename_i hcompiled
      cases h
      exact .inl ⟨registration, hfind, (hr.get_of_find? hfind).symm.trans hcompiled⟩
    · split at h
      · unfold plaintext at h
        split at h
        · rename_i hcompiled
          cases h
          exact .inr (hr.substitute.symm.trans hcompiled)
        · cases h
      · cases h

end Registry

end SyntaxHighlight
