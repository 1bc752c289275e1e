import SyntaxHighlight.Proofs.Highlight.History
import SyntaxHighlight.Proofs.Highlight.Result
import SyntaxHighlight.Proofs.Scan.Reach
import SyntaxHighlight.Proofs.Tree.Events
import SyntaxHighlight.Tree.Format

/-!
A result tells its text as a tree and as HTML. After a finished scan the HTML is made from the tree;
where the text is left as it is, both are made from the text. Either way they agree.
-/
namespace SyntaxHighlight

theorem Html.render_leaf (classPrefix s : String) : render classPrefix (.leaf s) = escape s := by
  by_cases hs : s = ""
  · subst hs
    rfl
  · simp [render, Tree.leaf, Tree.walk, Tree.walkAll, piece, hs]

theorem Formats.render_standard (classPrefix : String) (t : Tree) :
    (standard classPrefix).render "html" t = .ok (Html.render classPrefix t) := by
  cbv

theorem Tree.leaf_eq_toTree (s : String) : leaf s = (({} : TreeBuilder).addText s).toTree := by
  unfold TreeBuilder.addText leaf
  split <;> rfl

/-- What a result shows of a text for which a tree has been built. -/
structure HighlightResult.Shows (classPrefix code : String) (b : TreeBuilder)
    (r : HighlightResult) : Prop where
  value : r.value = Html.render classPrefix r.tree
  code : r.code = code
  tree : r.tree = b.finalize.root
  closed : b.finalize.opened = []
  /-- The scopes that have been open in the tree are closed, the innermost first. -/
  walk : r.tree.walk =
    b.events ++ (b.openNames.map fun name ↦ .closes (some name)) ++ [.closes none]

theorem HighlightResult.shows_of_tree {classPrefix code : String} {b : TreeBuilder}
    {r : HighlightResult} (hvalue : r.value = Html.render classPrefix r.tree)
    (hcode : r.code = code) (htree : r.tree = b.toTree) : r.Shows classPrefix code b where
  value := hvalue
  code := hcode
  tree := htree
  closed := b.opened_finalize
  walk := htree ▸ b.walk_toTree

theorem HighlightResult.plaintext_shows (classPrefix code : String) :
    (plaintext code).Shows classPrefix code (({} : TreeBuilder).addText code) :=
  shows_of_tree (Html.render_leaf classPrefix code).symm rfl (Tree.leaf_eq_toTree code)

def ScanSetting.builder (e : ScanSetting) (c : Option Continuation) :
    Except ScanError TreeBuilder :=
  match e.grammar.emitTokens with
  | some emission => pure (emission.emit e.text.toString {})
  | none => do
    let s ← ScanState.turns e (ScanState.maxTurns e) (e.start c)
    return (← s.readRest e).tree

theorem ScanSetting.tree_run (e : ScanSetting) (c : Option Continuation) :
    ScanOutput.tree <$> e.run c = TreeBuilder.toTree <$> e.builder c := by
  unfold run builder
  cases e.grammar.emitTokens with
  | some emission => rfl
  | none =>
    simp only [map_bind, map_pure]
    rfl

namespace Highlighter

variable {h : Highlighter} {l : Languages} {language code : String} {ignoreIllegals : Bool}
  {c : Option Continuation} {r : HighlightResult}

def builder (h : Highlighter) (l : Languages) (language code : String) (ignoreIllegals : Bool)
    (c : Option Continuation) : TreeBuilder :=
  let scanned := (h.registry.load language).toOption.bind fun loaded ↦
    ((ScanSetting.mk loaded (h.scanOptions ignoreIllegals) l (.ofString code)).builder c).toOption
  scanned.getD (({} : TreeBuilder).addText code)

/-- What is built for a text of unknown language: the text alone, or a tree for each candidate. -/
def BuildsAny (h : Highlighter) (l : Languages) (code : String) (subset : Option (List String))
    (b : TreeBuilder) : Prop :=
  b = ({} : TreeBuilder).addText code ∨ ∃ name ∈ h.candidates subset,
    b = h.builder l name code h.settings.autodetectIgnoreIllegals none

theorem highlightWith_shows (hr : h.highlightWith l language code ignoreIllegals c = .ok r) :
    r.Shows h.settings.classPrefix code (h.builder l language code ignoreIllegals c) := by
  obtain ⟨loaded, hload, hr⟩ := highlightWith_eq_ok hr
  have htree := ScanSetting.tree_run
    ⟨loaded, h.scanOptions ignoreIllegals, l, .ofString code⟩ c
  unfold builder
  rw [hload]
  obtain ⟨output, hrun, rfl⟩ | ⟨error, hrun, hr⟩ := hr
  · obtain ⟨b, hb, hbuilt⟩ := map_eq_ok.1 (htree.symm.trans (map_eq_ok.2 ⟨output, hrun, rfl⟩))
    dsimp only [Except.toOption, Option.bind_some]
    rw [hb]
    exact HighlightResult.shows_of_tree rfl rfl hbuilt.symm
  · have hb : (ScanSetting.mk loaded (h.scanOptions ignoreIllegals) l (.ofString code)).builder c =
        .error error := map_eq_error.1 (htree.symm.trans (map_eq_error.2 hrun))
    obtain ⟨_, _, _, rfl⟩ := settle_eq_ok hr
    dsimp only [Except.toOption, Option.bind_some]
    rw [hb]
    obtain ⟨hvalue, hcode, htree, -⟩ := HighlightResult.plaintext_shows h.settings.classPrefix code
    exact HighlightResult.shows_of_tree hvalue hcode htree

/-- Every result shows its text: what it is in HTML is its tree, rendered with the class prefix that
has been set, as the format of that name renders it; and the tree is what has been built for the
text, with all scopes closed. So it is after a scan that has come to its end, whatever it goes on
from and whatever languages it embeds, where the text is left as it is, and for both results for a
text of unknown language. -/
theorem value_renders_tree (h : Highlighter) (l : Languages) (code : String) :
    (∀ language ignoreIllegals c r, h.highlightWith l language code ignoreIllegals c = .ok r →
      r.Shows h.settings.classPrefix code (h.builder l language code ignoreIllegals c) ∧
        (Formats.standard h.settings.classPrefix).render "html" r.tree = .ok r.value) ∧
    ∀ subset d, h.detectWith l code subset = .ok d → ∀ r, r = d.best ∨ d.secondBest = some r →
      (∃ b, r.Shows h.settings.classPrefix code b ∧ h.BuildsAny l code subset b) ∧
        (Formats.standard h.settings.classPrefix).render "html" r.tree = .ok r.value := by
  have hformat {b : TreeBuilder} {r : HighlightResult}
      (hr : r.Shows h.settings.classPrefix code b) :
      (Formats.standard h.settings.classPrefix).render "html" r.tree = .ok r.value := by
    rw [Formats.render_standard, hr.value]
  refine ⟨fun language ignoreIllegals c r hr ↦ ?_, fun subset d hd r hr ↦ ?_⟩
  · have hshows := highlightWith_shows hr
    exact ⟨hshows, hformat hshows⟩
  · obtain ⟨hbest, hsecond⟩ := detectWith_all hd
      (P := fun r ↦ ∃ b, r.Shows h.settings.classPrefix code b ∧ h.BuildsAny l code subset b)
      ⟨_, HighlightResult.plaintext_shows _ code, .inl rfl⟩
      fun name r hname hr ↦ ⟨_, highlightWith_shows hr, .inr ⟨name, hname, rfl⟩⟩
    obtain ⟨b, hshows, hb⟩ : ∃ b, r.Shows h.settings.classPrefix code b ∧
        h.BuildsAny l code subset b := by
      obtain rfl | hr := hr
      · exact hbest
      · exact hsecond r hr
    exact ⟨⟨b, hshows, hb⟩, hformat hshows⟩

/-- A grammar that opens a scope around every text and leaves it open. -/
def framing : Grammar where
  name := "framing"
  emitTokens := some ⟨fun code ↦ [.opens "frame.outer", .text code]⟩

theorem framing_renders : ∃ h r d second,
    ofChanges { classPrefix := "c-" } [.register "framing" (.ok framing)] = .ok h ∧
      h.highlight "framing" "<x>" false = .ok r ∧
      r.value = "<span class=\"c-frame outer_\">&lt;x&gt;</span>" ∧
      Html.render "c-" r.tree = r.value ∧
      r.tree.walk = [.opens none, .opens (some "frame.outer"), .text "<x>",
        .closes (some "frame.outer"), .closes none] ∧
      h.detect "<x>" none = .ok d ∧ d.secondBest = some second ∧
      (∃ b, d.best.Shows "c-" "<x>" b) ∧ ∃ b, second.Shows "c-" "<x>" b := by
  have hevaluated : (ofChanges { classPrefix := "c-" }
      [.register "framing" (.ok framing)]).toOption.map (fun h ↦
        ((h.highlight "framing" "<x>" false).toOption.map HighlightResult.value,
          (h.detect "<x>" none).toOption.map (fun d ↦ d.secondBest.map HighlightResult.language),
          h.builder (h.languagesFor "<x>") "framing" "<x>" false none)) =
      some (some "<span class=\"c-frame outer_\">&lt;x&gt;</span>", some (some (some "framing")),
        { opened := [⟨"frame.outer", [.text "<x>"]⟩] }) := by
    cbv
  obtain ⟨h, hh, hvalues⟩ := eq_ok_of_map hevaluated
  obtain ⟨hhighlighted, hvalues⟩ := Prod.mk.inj hvalues
  obtain ⟨hdetected, hbuilt⟩ := Prod.mk.inj hvalues
  obtain ⟨r, hr, hvalue⟩ := eq_ok_of_map hhighlighted
  obtain ⟨d, hd, hnext⟩ := eq_ok_of_map hdetected
  obtain ⟨second, hsecond, -⟩ := Option.map_eq_some_iff.1 hnext
  obtain ⟨hresults, hdetections⟩ := value_renders_tree h (h.languagesFor "<x>") "<x>"
  rw [settings_ofChanges hh] at hresults hdetections
  obtain ⟨hshows, -⟩ := hresults _ _ _ _ hr
  have hwalk := hshows.walk
  rw [hbuilt] at hwalk
  obtain ⟨⟨b, hbest, -⟩, -⟩ := hdetections none d hd d.best (.inl rfl)
  obtain ⟨⟨b', hother, -⟩, -⟩ := hdetections none d hd second (.inr hsecond)
  exact ⟨h, r, d, second, hh, hr, hvalue, hshows.value.symm, hwalk, hd, hsecond, ⟨b, hbest⟩,
    ⟨b', hother⟩⟩

end Highlighter

end SyntaxHighlight
