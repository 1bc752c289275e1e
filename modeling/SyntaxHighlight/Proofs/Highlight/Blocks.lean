import SyntaxHighlight.Proofs.Highlight.History
import SyntaxHighlight.Proofs.Highlight.Result
import SyntaxHighlight.Proofs.Scan.Blocks
import SyntaxHighlight.Proofs.Scan.Root

/-!
The blocks of a text, each highlighted by the language it is in. A block goes on with the modes that
the last finished block in its language has left open, and opens their scopes in its own tree.
-/
namespace SyntaxHighlight

namespace Highlighter

variable (h : Highlighter) (depth : Nat)

def blockSetting (loaded : LoadedGrammar) (b : Block) : ScanSetting where
  loaded
  options := h.scanOptions true
  languages := h.languages depth
  text := .ofString b.text

/-- What the scan of a block comes to, if its language is known and the scan finishes. -/
def blockRun? (b : Block) : Option ScanOutput :=
  (h.registry.load b.name).toOption.bind fun loaded ↦
    ((h.blockSetting depth loaded b).run b.resumes).toOption

/-- What the last finished block in a language has come to. -/
def lastRun? (bs : List Block) (name : String) : Option ScanOutput :=
  bs.reverse.findSome? fun b ↦ if b.name = name then h.blockRun? depth b else none

/-- The modes that a block starts with after the last finished one in its language. -/
def modesAfter : Option ScanOutput → List Frame
  | some last =>
    if last.continuation.stack ≠ [] then last.continuation.stack
    else [{ mode := CompiledGrammar.rootId }]
  | none => [{ mode := CompiledGrammar.rootId }]

variable {h depth}

theorem continuation_settle {language code : String} {error : ScanError} {r : HighlightResult}
    (hr : h.settle language code error = .ok r) : r.continuation = none := by
  obtain ⟨_, _, _, rfl⟩ := settle_eq_ok hr
  rfl

theorem blockRun?_of_load {b : Block} {loaded : LoadedGrammar}
    (hload : h.registry.load b.name = .ok loaded) :
    h.blockRun? depth b = ((h.blockSetting depth loaded b).run b.resumes).toOption := by
  rw [blockRun?, hload]
  rfl

variable {e : ScanSetting}

/-- A block leaves where its scan has stopped, if it has finished, and nothing otherwise. -/
theorem left?_eq_blockRun? (he : e.languages = h.languages (depth + 1)) (b : Block) :
    b.left? e = (h.blockRun? depth b).map ScanOutput.continuation := by
  have hknown : e.languages.isKnown b.name = h.registry.isKnown b.name := by
    rw [he]
    rfl
  have hhighlight : e.languages.highlight b.name b.text b.resumes =
      h.highlightWith (h.languages depth) b.name b.text true b.resumes := by
    rw [he]
    rfl
  rw [Block.left?, hknown, hhighlight, highlightWith]
  cases hload : h.registry.load b.name with
  | error cause => simp [blockRun?, hload, bind, Except.bind, Except.toOption]
  | ok loaded =>
    rw [if_pos (Registry.isKnown_of_load hload), blockRun?_of_load hload]
    cases hrun : (h.blockSetting depth loaded b).run b.resumes with
    | ok output =>
      unfold blockSetting at hrun
      simp only [bind, Except.bind, hrun]
      rfl
    | error error =>
      unfold blockSetting at hrun
      simp only [bind, Except.bind, hrun]
      cases hr : h.settle b.name b.text error with
      | error cause => rfl
      | ok r => exact continuation_settle hr

theorem lastLeft?_eq_lastRun? (he : e.languages = h.languages (depth + 1)) (bs : List Block)
    (name : String) :
    Block.lastLeft? e bs name = (h.lastRun? depth bs name).map ScanOutput.continuation := by
  rw [Block.lastLeft?, lastRun?, List.map_findSome?]
  congr 1
  funext b
  rw [Function.comp_apply, apply_ite (Option.map _), left?_eq_blockRun? he]
  rfl

variable {c : Option Continuation} {before after : List Block} {b : Block} {loaded : LoadedGrammar}

theorem resumes_eq_lastRun? (he : e.languages = h.languages (depth + 1))
    (hb : e.blocks c = before ++ b :: after) :
    b.resumes = (h.lastRun? depth before b.name).map ScanOutput.continuation := by
  rw [ScanSetting.blocks_resumes hb, lastLeft?_eq_lastRun? he]

theorem exists_of_lastRun? {bs : List Block} {name : String} {output : ScanOutput}
    (h' : h.lastRun? depth bs name = some output) :
    ∃ earlier b later, bs = earlier ++ b :: later ∧ b.name = name ∧
      h.blockRun? depth b = some output := by
  obtain ⟨b, hmem, hrun⟩ := List.exists_of_findSome?_eq_some h'
  obtain ⟨earlier, later, rfl⟩ := List.append_of_mem (List.mem_reverse.1 hmem)
  split at hrun
  · exact ⟨earlier, b, later, rfl, ‹_›, hrun⟩
  · cases hrun

theorem run_of_blockRun? {output : ScanOutput} (hload : h.registry.load b.name = .ok loaded)
    (hrun : h.blockRun? depth b = some output) :
    (h.blockSetting depth loaded b).run b.resumes = .ok output := by
  rw [blockRun?_of_load hload] at hrun
  exact eq_ok_of_toOption hrun

/-- Whatever a block goes on from, scans in its language have left it. -/
theorem resumes_of_blocks (he : e.languages = h.languages (depth + 1))
    (hb : e.blocks c = before ++ b :: after) (hload : h.registry.load b.name = .ok loaded) :
    ScanSetting.Resumes loaded b.resumes := by
  -- By the number of blocks before it: the last finished one goes on from such scans as well.
  induction hn : before.length using Nat.strong_induction_on generalizing before b after with
  | _ n ih =>
    rw [resumes_eq_lastRun? he hb]
    cases hlast : h.lastRun? depth before b.name with
    | none => exact .fresh
    | some output =>
      obtain ⟨earlier, b', later, hbefore, hname, hrun⟩ := exists_of_lastRun? hlast
      have hload' : h.registry.load b'.name = .ok loaded := hname ▸ hload
      have hb' : e.blocks c = earlier ++ b' :: (later ++ b :: after) := by
        rw [hb, hbefore, List.append_assoc, List.cons_append]
      have hlength : earlier.length < n := by
        rw [← hn, hbefore]
        simp
      have hearlier := ih _ hlength hb' hload' rfl
      have hscan := run_of_blockRun? hload' hrun
      exact .scanned rfl hearlier hscan

theorem startStack_of_lastRun? (he : e.languages = h.languages (depth + 1))
    (hb : e.blocks c = before ++ b :: after) (hload : h.registry.load b.name = .ok loaded) :
    (h.blockSetting depth loaded b).startStack b.resumes =
      modesAfter (h.lastRun? depth before b.name) := by
  rw [resumes_eq_lastRun? he hb]
  cases hlast : h.lastRun? depth before b.name with
  | none => rfl
  | some output =>
    obtain ⟨_, b', _, -, hname, hrun⟩ := exists_of_lastRun? hlast
    have hid := ScanSetting.continuation_grammar (run_of_blockRun? (hname ▸ hload) hrun)
    have hsame : output.continuation.grammar = loaded.id := hid
    simp [ScanSetting.startStack, blockSetting, modesAfter, hsame]

/-- A block goes on from what the last finished block in its language has left, whatever has been
handed over in between. It starts with the modes that were open there, or with the outermost one
alone. In its tree the scopes of all but the one at the bottom are open; that one is the outermost
mode, which has no scope, unless the language gives it an end or a scope. -/
theorem block_goes_on (he : e.languages = h.languages (depth + 1))
    (hb : e.blocks c = before ++ b :: after) (hload : h.registry.load b.name = .ok loaded) :
    b.resumes = (h.lastRun? depth before b.name).map ScanOutput.continuation ∧
    (h.blockSetting depth loaded b).startStack b.resumes =
      modesAfter (h.lastRun? depth before b.name) ∧
    ∀ output stack, (h.blockSetting depth loaded b).run b.resumes = .ok output →
      (h.blockSetting depth loaded b).startStack b.resumes = stack →
      (h.blockSetting depth loaded b).opens stack.dropLast <+: output.tree.walk ∧
      ∀ g : Grammar, g.compile h.registry.scoring = .ok loaded.grammar → ¬ g.EndsRoot →
        Rooted stack ∧ (loaded.grammar.root.scope = none →
          (h.blockSetting depth loaded b).opens stack <+: output.tree.walk) := by
  have hresumes := resumes_of_blocks he hb hload
  refine ⟨resumes_eq_lastRun? he hb, startStack_of_lastRun? he hb hload, ?_⟩
  rintro output _ hrun rfl
  have hopens := ScanSetting.opens_prefix (e := h.blockSetting depth loaded b) hresumes hrun
  refine ⟨hopens, fun g hg hno ↦ ?_⟩
  have hending : loaded.grammar.root.ending = none :=
    Option.not_isSome_iff_eq_none.1 (mt (Grammar.compile_root_ending hg).1 hno)
  have hrooted : Rooted ((h.blockSetting depth loaded b).startStack b.resumes) :=
    hresumes.rooted (Grammar.compile_root_starts hg) hending rfl
  refine ⟨hrooted, fun hscope ↦ ?_⟩
  rwa [ScanSetting.opens_dropLast (e := h.blockSetting depth loaded b) hrooted hscope] at hopens

def parentheses : Grammar where
  name := "parentheses"
  contains := [.inline
    { scope := some (.name "p"), begin := some (.source "\\("), ending := some (.source "\\)") }]

def bracketing : Grammar where
  name := "bracketing"
  contains := [.inline
    { begin := some (.source "<"), ending := some (.source ">"), excludeBegin := true,
      excludeEnd := true, subLanguage := some (.fixed "parentheses") }]

def bracketingChanges : List Registry.Change :=
  [.register "parentheses" (.ok parentheses), .register "bracketing" (.ok bracketing)]

def bracketingSetting (h : Highlighter) (loaded : LoadedGrammar) (text : String) : ScanSetting where
  loaded
  options := h.scanOptions true
  languages := h.languages 2
  text := .ofString text

/-- A block within a parenthesis that the block before it has left open. -/
def withinParenthesis : Block where
  name := "parentheses"
  text := "a"
  resumes := some ⟨.registered 0, [{ mode := 1 }, { mode := CompiledGrammar.rootId }]⟩

theorem parentheses_go_on : ∃ h host loaded output,
    ofChanges { safeMode := false } bracketingChanges = .ok h ∧
    h.registry.load "bracketing" = .ok host ∧
    (h.bracketingSetting host "<x(><a>").blocks none =
      [⟨"parentheses", "x(", none⟩, withinParenthesis] ∧
    h.registry.load withinParenthesis.name = .ok loaded ∧
    (h.blockSetting 1 loaded withinParenthesis).run withinParenthesis.resumes = .ok output ∧
    (h.blockSetting 1 loaded withinParenthesis).opens
      [{ mode := 1 }, { mode := CompiledGrammar.rootId }] <+: output.tree.walk := by
  have hevaluated : (ofChanges { safeMode := false } bracketingChanges).toOption.map (fun h ↦
      ((h.registry.load "bracketing").toOption.map fun host ↦
          (h.bracketingSetting host "<x(><a>").blocks none,
        (h.registry.load "parentheses").toOption.map fun loaded ↦
          (loaded.id, loaded.grammar.root.scope, ((h.blockSetting 1 loaded withinParenthesis).run
            withinParenthesis.resumes).toOption.isSome),
        (h.registry.find? "parentheses").map fun registration ↦
          registration.grammar.extensions)) =
      some (some [⟨"parentheses", "x(", none⟩, withinParenthesis],
        some (.registered 0, none, true), some []) := by
    cbv
  obtain ⟨h, hh, hvalues⟩ := eq_ok_of_map hevaluated
  simp only [Prod.mk.injEq] at hvalues
  obtain ⟨hhost, hparentheses, hextensions⟩ := hvalues
  obtain ⟨host, hhost, hblocks⟩ := eq_ok_of_map hhost
  obtain ⟨loaded, hload, hloaded⟩ := eq_ok_of_map hparentheses
  simp only [Prod.mk.injEq] at hloaded
  obtain ⟨hid, hscope, hrun⟩ := hloaded
  obtain ⟨output, hrun⟩ := Option.isSome_iff_exists.1 hrun
  obtain ⟨g, hg, hplain⟩ : ∃ g : Grammar, g.compile h.registry.scoring = .ok loaded.grammar ∧
      g.extensions = [] := by
    obtain ⟨registration, hfind, hg⟩ | hg := (ofChanges_built hh).compiled.load_eq_ok hload
    · rw [hfind] at hextensions
      exact ⟨_, hg, Option.some.inj hextensions⟩
    · exact ⟨_, hg, rfl⟩
  have hno : ¬ g.EndsRoot := Grammar.not_endsRoot (by simp [hplain])
  have hstack : (h.blockSetting 1 loaded withinParenthesis).startStack withinParenthesis.resumes =
      [{ mode := 1 }, { mode := CompiledGrammar.rootId }] := by
    simp [ScanSetting.startStack, withinParenthesis, blockSetting, hid]
  have hb : (h.bracketingSetting host "<x(><a>").blocks none =
      [⟨"parentheses", "x(", none⟩] ++ withinParenthesis :: [] := hblocks
  have hrun := eq_ok_of_toOption hrun
  have he : (h.bracketingSetting host "<x(><a>").languages = h.languages (1 + 1) := rfl
  obtain ⟨-, -, hopens⟩ := block_goes_on he hb hload
  have hgoes := hopens output _ hrun hstack
  exact ⟨h, host, loaded, output, hh, hhost, hblocks, hload, hrun, (hgoes.2 g hg hno).2 hscope⟩

end Highlighter

end SyntaxHighlight
