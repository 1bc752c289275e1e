import Mathlib
import SyntaxHighlight.Proofs.Grammar.Arena
import SyntaxHighlight.Proofs.Highlight.Registry
import SyntaxHighlight.Proofs.Highlight.Result
import SyntaxHighlight.Proofs.Mode.Prepared
import SyntaxHighlight.Proofs.Scan.RoundTrip

/-! Highlighting loses no text, whatever languages are embedded in it. -/
namespace SyntaxHighlight

variable {g : Grammar} {scoring : KeywordScoring} {cg : CompiledGrammar}

/-- The begin of a mode is taken apart only if its text is the mode's own. -/
theorem Compilation.partsAlone {fuel : Nat} {t : Template} {around : List Enclosing} {a a' : Arena}
    (c : Compilation g scoring fuel t around a a') : c.mode.PartsAlone := by
  refine ⟨fun parts hparts ↦ ?_⟩
  obtain ⟨_, _, _, _, _, -, -, -, -, ⟨_, _, hbegin⟩, -⟩ := Mode.prepare_eq_ok c.prepare_eq
  rw [show c.p.beginTagging = some (.parts parts) from hparts] at hbegin
  have hflags := Mode.tagBoundary_parts hbegin
  simp only [Bool.or_eq_false_iff] at hflags
  exact ⟨hflags.1.1, hflags.1.2, hflags.2⟩

theorem Grammar.compile_partsAlone (h : g.compile scoring = .ok cg) (i : Nat) :
    (cg.mode i).PartsAlone :=
  compile_all h ⟨nofun⟩ Compilation.partsAlone i

/-- A mode that neither takes a text apart nor marks words in it. -/
structure CompiledMode.Simple (m : CompiledMode) : Prop where
  returnBegin : m.returnBegin = false
  returnEnd : m.returnEnd = false
  endsWithParent : m.endsWithParent = false
  starts : m.starts = none
  keywordPattern : m.keywordPattern = none
  beginTagging : m.beginTagging = none
  endTagging : m.endTagging = none
  ranges : ∀ k text start hit stop, m.matcher.searchTail k text start = .ok (some hit) →
    hit.groups.head?.join = some (hit.index, stop) →
    start ≤ hit.index ∧ hit.index ≤ stop ∧ stop ≤ text.size

theorem CompiledMode.Simple.orderly {m : CompiledMode} (h : m.Simple) : m.Orderly where
  returnBegin hr := by
    rw [h.returnBegin] at hr
    cases hr
  returnEnd hr := by
    rw [h.returnEnd] at hr
    cases hr
  endsWithParent hp := by
    rw [h.endsWithParent] at hp
    cases hp

theorem CompiledGrammar.safe_of_simple (hemit : cg.emitTokens = none)
    (h : ∀ i, (cg.mode i).Simple) : cg.Orderly ∧ cg.Searchable := by
  refine ⟨⟨hemit, fun i ↦ (h i).orderly, fun i next parts hstarts ↦ ?_⟩,
    ⟨fun i ↦ (h i).ranges, fun i pattern text hpattern ↦ ?_,
      fun i k text start hit stop id parts _ _ _ hparts ↦ ?_,
      fun i k text start hit stop parts _ _ _ _ hparts ↦ ?_⟩⟩
  · rw [(h i).starts] at hstarts
    cases hstarts
  · rw [(h i).keywordPattern] at hpattern
    cases hpattern
  · rw [(h id).beginTagging] at hparts
    cases hparts
  · rw [(h i).endTagging] at hparts
    cases hparts

/-- The alternations of a mode, if its fields are those of a simple one. -/
def CompiledMode.simple? (m : CompiledMode) :
    Option (List (Except GrammarError Rule.Alternation)) :=
  if m.returnBegin || m.returnEnd || m.endsWithParent || m.starts.isSome ||
    m.keywordPattern.isSome || m.beginTagging.isSome || m.endTagging.isSome then none
  else some (m.matcher.tails.toList.map Thunk.get)

/-- Modes with the fields of simple ones are simple if what their rules span is. -/
theorem CompiledGrammar.simple_of_fields
    {tails : List (Option (List (Except GrammarError Rule.Alternation)))}
    (h : cg.modes.toList.map CompiledMode.simple? = tails)
    (htails : ∀ tail ∈ tails, ∃ gets, tail = some gets ∧
      ∀ alternation, .ok alternation ∈ gets →
        ∀ text start hit stop, alternation.search? text start = some hit →
          hit.groups.head?.join = some (hit.index, stop) →
          start ≤ hit.index ∧ hit.index ≤ stop ∧ stop ≤ text.size) (i : Nat) :
    (cg.mode i).Simple := by
  rw [CompiledGrammar.mode]
  cases hi : cg.modes[i]? with
  | none =>
    refine ⟨rfl, rfl, rfl, rfl, rfl, rfl, rfl, fun k text start hit stop hhit ↦ ?_⟩
    obtain ⟨alternation, hmem, -⟩ := Rule.Resumable.searchTail_mem hhit
    cases hmem
  | some m =>
    have hm : m.simple? ∈ tails :=
      h ▸ List.mem_map_of_mem (Array.mem_toList_iff.2 (Array.mem_of_getElem? hi))
    obtain ⟨gets, hgets, hranges⟩ := htails _ hm
    unfold CompiledMode.simple? at hgets
    split at hgets
    · cases hgets
    · cases hgets
      rename_i hfields
      simp only [Bool.or_eq_true, not_or, Bool.not_eq_true, Option.isSome_eq_false_iff,
        Option.isNone_iff_eq_none] at hfields
      obtain ⟨⟨⟨⟨⟨⟨hbegin, hend⟩, hparent⟩, hstarts⟩, hkeywords⟩, hbegins⟩, hends⟩ := hfields
      refine ⟨hbegin, hend, hparent, hstarts, hkeywords, hbegins, hends, ?_⟩
      intro k text start hit stop hhit
      obtain ⟨alternation, hmem, hsearch⟩ := Rule.Resumable.searchTail_mem hhit
      exact hranges alternation hmem text start hit stop hsearch

theorem Grammar.plaintext_safe (h : plaintext.compile scoring = .ok cg) :
    cg.Orderly ∧ cg.Searchable := by
  have hevaluated : (plaintext.compile scoring).toOption.map (fun cg ↦
      (cg.emitTokens.isNone, cg.modes.toList.map CompiledMode.simple?)) =
      some (true, [some [.ok ⟨none, []⟩]]) := by
    cbv
  obtain ⟨_, hcg, hvalues⟩ := eq_ok_of_map hevaluated
  cases h.symm.trans hcg
  obtain ⟨hemit, hmodes⟩ := Prod.mk.inj hvalues
  refine CompiledGrammar.safe_of_simple (Option.isNone_iff_eq_none.1 hemit)
    (CompiledGrammar.simple_of_fields hmodes fun tail htail ↦ ?_)
  refine ⟨_, List.mem_singleton.1 htail, fun alternation halternation ↦ ?_⟩
  cases List.mem_singleton.1 halternation
  intro text start hit stop hhit
  cases hhit

/-- Every language of a registry can be scanned without losing text. -/
def Registry.KeepsText (r : Registry) : Prop :=
  ∀ name loaded, r.load name = .ok loaded →
    loaded.grammar.Orderly ∧ (∀ i, (loaded.grammar.mode i).PartsAlone) ∧ loaded.grammar.Searchable

theorem Registry.Built.keepsText {r : Registry} (hr : r.Built)
    (h : ∀ name registration cg, r.find? name = some registration →
      registration.grammar.compile r.scoring = .ok cg → cg.Orderly ∧ cg.Searchable) :
    r.KeepsText := by
  intro name loaded hload
  obtain ⟨registration, hfind, hcg⟩ | hcg := hr.compiled.load_eq_ok hload
  · obtain ⟨horderly, hsearchable⟩ := h name registration _ hfind hcg
    exact ⟨horderly, Grammar.compile_partsAlone hcg, hsearchable⟩
  · obtain ⟨horderly, hsearchable⟩ := Grammar.plaintext_safe hcg
    exact ⟨horderly, Grammar.compile_partsAlone hcg, hsearchable⟩

namespace Highlighter

variable {h : Highlighter}

theorem settle_keepsText {language code : String} {error : ScanError} {r : HighlightResult}
    (hr : h.settle language code error = .ok r) : r.tree.plainText = code := by
  obtain ⟨_, _, _, rfl⟩ := settle_eq_ok hr
  exact Tree.plainText_leaf code

section

variable {l : Languages} (hr : h.registry.KeepsText) (hl : l.KeepText)
include hr hl

theorem run_keepsText {name code : String} {loaded : LoadedGrammar} {options : ScanOptions}
    {c : Option Continuation} {output : ScanOutput} (hload : h.registry.load name = .ok loaded)
    (hrun : (ScanSetting.mk loaded options l (.ofString code)).run c = .ok output) :
    output.tree.plainText = code := by
  obtain ⟨horderly, hparts, hsearchable⟩ := hr name loaded hload
  have hsafe : (ScanSetting.mk loaded options l (.ofString code)).Safe :=
    ⟨horderly, hparts, hsearchable, hl⟩
  rw [ScanSetting.run_keepsText hsafe hrun]
  exact Text.rest_ofString code

theorem highlightWith_keepsText {language code : String} {ignoreIllegals : Bool}
    {c : Option Continuation} {r : HighlightResult}
    (h : h.highlightWith l language code ignoreIllegals c = .ok r) : r.tree.plainText = code := by
  obtain ⟨loaded, hload, ⟨output, hrun, rfl⟩ | ⟨error, -, hsettle⟩⟩ := highlightWith_eq_ok h
  · exact run_keepsText hr hl hload hrun
  · exact settle_keepsText hsettle

theorem detectWith_keepsText {code : String} {subset : Option (List String)} {d : Detection}
    (h : h.detectWith l code subset = .ok d) : d.best.tree.plainText = code :=
  (detectWith_all h (Tree.plainText_leaf code) fun _ _ _ hname ↦
    highlightWith_keepsText hr hl hname).1

end

theorem languages_keepText (hr : h.registry.KeepsText) (depth : Nat) :
    (h.languages depth).KeepText := by
  induction depth with
  | zero =>
    refine ⟨fun name text c r hresult ↦ ?_, fun text names r hresult ↦ ?_⟩
    · simp only [languages] at hresult
      split at hresult
      · exact settle_keepsText hresult
      · cases hresult
    · simp only [languages] at hresult
      split at hresult
      · cases hresult
        exact Tree.plainText_leaf text
      · cases hresult
  | succ depth ih =>
    refine ⟨fun name text c r hresult ↦ highlightWith_keepsText hr ih hresult,
      fun text names r hresult ↦ ?_⟩
    obtain ⟨d, hd, rfl⟩ := map_eq_ok.1 hresult
    exact detectWith_keepsText hr ih hd

/-- The tree of a highlighted text has just the text: that of a scan that succeeds, whatever it
goes on from and however deep languages may be embedded, and that of every result. -/
theorem tree_text_eq (hb : h.registry.Built)
    (hg : ∀ name registration cg, h.registry.find? name = some registration →
      registration.grammar.compile h.registry.scoring = .ok cg → cg.Orderly ∧ cg.Searchable) :
    (∀ name loaded options depth code c output, h.registry.load name = .ok loaded →
      (ScanSetting.mk loaded options (h.languages depth) (.ofString code)).run c = .ok output →
      output.tree.plainText = code) ∧
    ∀ language code ignoreIllegals r, h.highlight language code ignoreIllegals = .ok r →
      r.tree.plainText = code := by
  have hr := hb.keepsText hg
  refine ⟨fun name loaded options depth code c output hload hrun ↦ ?_,
    fun language code ignoreIllegals r hresult ↦ ?_⟩
  · exact run_keepsText hr (languages_keepText hr depth) hload hrun
  · exact highlightWith_keepsText hr (languages_keepText hr _) hresult

def letters : Grammar where
  name := "letters"
  contains := [.inline { begin := some (.source "a"), ending := some (.source "b") }]

def lettersRegistry : Registry where
  safeMode := false
  scoring := default
  languages := Dictionary.empty.insert (Unicode.lowercase "letters")
    ⟨0, letters, Thunk.mk fun _ ↦ letters.compile default⟩
  next := 1

theorem lettersRegistry_built : lettersRegistry.Built :=
  Registry.Built.register (.empty false default)
    (rfl : Registry.register _ "letters" (.ok letters) = .ok lettersRegistry)

def ofSet (source : String) (set : Regex.CharSet) : Rule.Alternation :=
  ⟨some ⟨source, .group 1 (.set set), 1, []⟩, [1]⟩

theorem ofSet_ranges {source : String} {set : Regex.CharSet} {text : Text} {start stop : Nat}
    {hit : Rule.Hit} (hhit : (ofSet source set).search? text start = some hit)
    (hhead : hit.groups.head?.join = some (hit.index, stop)) :
    start ≤ hit.index ∧ hit.index ≤ stop ∧ stop ≤ text.size :=
  Rule.Alternation.search?_range rfl hhit hhead

theorem letters_safe {cg : CompiledGrammar} (h : letters.compile default = .ok cg) :
    cg.Orderly ∧ cg.Searchable := by
  have hevaluated : (letters.compile default).toOption.map (fun cg ↦
      (cg.emitTokens.isNone, cg.modes.toList.map CompiledMode.simple?)) =
      some (true, [some [.ok (ofSet "(a)" (.range 'a' 'a'))],
        some [.ok (ofSet "(b)" (.range 'b' 'b'))]]) := by
    cbv
  obtain ⟨_, hcg, hvalues⟩ := eq_ok_of_map hevaluated
  cases h.symm.trans hcg
  obtain ⟨hemit, hmodes⟩ := Prod.mk.inj hvalues
  refine CompiledGrammar.safe_of_simple (Option.isNone_iff_eq_none.1 hemit)
    (CompiledGrammar.simple_of_fields hmodes fun tail htail ↦ ?_)
  have hsets : ∃ source set, tail = some [.ok (ofSet source set)] := by
    obtain rfl | htail := List.mem_cons.1 htail
    · exact ⟨_, _, rfl⟩
    · exact ⟨_, _, List.mem_singleton.1 htail⟩
  obtain ⟨source, set, rfl⟩ := hsets
  refine ⟨_, rfl, fun alternation halternation ↦ ?_⟩
  cases List.mem_singleton.1 halternation
  exact fun text start hit stop ↦ ofSet_ranges

theorem lettersRegistry_safe (name : String) (registration : Registration) (cg : CompiledGrammar)
    (hfind : lettersRegistry.find? name = some registration)
    (hcg : registration.grammar.compile lettersRegistry.scoring = .ok cg) :
    cg.Orderly ∧ cg.Searchable := by
  obtain ⟨key, hkey⟩ := Registry.mem_of_find? hfind
  obtain hentry | hentry := Dictionary.mem_insert hkey
  · cases hentry
    exact letters_safe hcg
  · cases hentry

theorem lettersRegistry_load {cg : CompiledGrammar} (h : letters.compile default = .ok cg) :
    lettersRegistry.load "letters" = .ok ⟨.registered 0, cg⟩ := by
  have hfind : lettersRegistry.find? "letters" =
      some ⟨0, letters, Thunk.mk fun _ ↦ letters.compile default⟩ := by
    simp [Registry.find?, Registry.resolve?, lettersRegistry, Dictionary.insert, Dictionary.empty,
      Dictionary.get?]
  have hget : (Thunk.mk fun _ ↦ letters.compile default).get = .ok cg := h
  simp only [Registry.load, hfind, hget]
  rfl

def lettersSetting (text : String) : ScanSetting where
  loaded := ⟨.registered 0, ((letters.compile default).toOption).getD default⟩
  options := ⟨true, false, 10, 7⟩
  languages := (Highlighter.mk lettersRegistry {}).languages 0
  text := .ofString text

theorem letters_text_eq :
    ∃ output, (lettersSetting "cab").run none = .ok output ∧ output.tree.plainText = "cab" := by
  have hok : (letters.compile default).isOk = true := by cbv
  have hcompile := eq_ok_of_isOk hok default
  have hrun : ((lettersSetting "cab").run none).toOption.map ScanOutput.relevance = some 1 := by
    cbv
  obtain ⟨output, houtput, -⟩ := eq_ok_of_map hrun
  refine ⟨output, houtput, ?_⟩
  exact (tree_text_eq (h := ⟨lettersRegistry, {}⟩) lettersRegistry_built
    lettersRegistry_safe).1 "letters" _ _ 0 _ none _ (lettersRegistry_load hcompile) houtput

end Highlighter

end SyntaxHighlight
