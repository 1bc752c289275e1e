import SyntaxHighlight.Proofs.Scan.Stack
import SyntaxHighlight.Proofs.Tree.Nesting

/-! The scopes that are open in the tree are those of the open modes. Text of any kind leaves them
as they are; only modes that open and close change them. -/
namespace SyntaxHighlight

namespace ScanSetting

variable (e : ScanSetting)

/-- The scope of a mode as it is written. -/
def scopeOf (id : Nat) : Option String := (e.grammar.mode id).scope.map e.grammar.aliasScope

/-- The scopes of some open modes, the innermost first. The outermost mode has none. -/
def openScopes (stack : List Frame) : List String :=
  (stack.map Frame.mode).dropLast.filterMap e.scopeOf

theorem openScopes_cons (frame : Frame) {outer : List Frame} (h : outer ≠ []) :
    e.openScopes (frame :: outer) = (e.scopeOf frame.mode).toList ++ e.openScopes outer := by
  obtain ⟨next, rest, rfl⟩ := List.exists_cons_of_ne_nil h
  simp only [openScopes, List.map_cons, List.dropLast_cons_cons, List.filterMap_cons]
  split <;> simp [*]

theorem openScopes_congr {stack stack' : List Frame}
    (h : stack'.map Frame.mode = stack.map Frame.mode) :
    e.openScopes stack' = e.openScopes stack := by
  rw [openScopes, h, openScopes]

end ScanSetting

namespace ScanState

section Texts

variable (e : ScanSetting) (s : ScanState)

theorem openNames_addText (text : String) :
    (s.addText text).tree.openNames = s.tree.openNames :=
  s.tree.openNames_addText text

theorem openNames_addScoped (scope text : String) :
    (s.addScoped e scope text).tree.openNames = s.tree.openNames :=
  s.tree.openNames_addScoped _ text

theorem openNames_addKeyword (plain word : String) (keyword : Keyword) :
    (s.addKeyword e plain word keyword).1.tree.openNames = s.tree.openNames := by
  have hhit : ((s.addText plain).hit e word keyword).tree.openNames = s.tree.openNames :=
    openNames_addText s plain
  unfold addKeyword
  dsimp only
  split
  · exact hhit
  · rw [openNames_addScoped, hhit]

theorem openNames_addWords (table : KeywordTable) (text : Text) (last : Nat) (plain : String)
    (spans : List Span) :
    (addWords e table text last plain spans s).tree.openNames = s.tree.openNames := by
  induction spans generalizing s last plain with
  | nil => exact openNames_addText s _
  | cons span spans ih =>
    obtain ⟨start, stop⟩ := span
    simp only [addWords]
    split
    · rw [ih]
    · rw [ih, openNames_addKeyword]

theorem openNames_addKeywords (text : String) :
    (s.addKeywords e text).tree.openNames = s.tree.openNames := by
  unfold addKeywords
  dsimp only
  split
  · exact openNames_addWords ..
  · exact openNames_addText s text

theorem openNames_addParts (groups : List (Option Span)) (parts : List (Nat × Option String)) :
    (addParts e groups parts s).tree.openNames = s.tree.openNames := by
  induction parts generalizing s with
  | nil => rfl
  | cons part parts ih =>
    obtain ⟨group, scope⟩ := part
    simp only [addParts]
    split
    · rw [ih]
    · split
      · rw [ih, openNames_addScoped]
      · rw [ih, openNames_addKeywords]

variable {e s} {s' : ScanState}

theorem openNames_embed (result : HighlightResult) (weight : Nat) :
    (s.embed result weight).tree.openNames = s.tree.openNames :=
  s.tree.openNames_embed _ _

theorem openNames_addEmbedded {sub : SubLanguage} {text : String} {weight : Nat}
    (h : s.addEmbedded e sub text weight = .ok s') : s'.tree.openNames = s.tree.openNames := by
  unfold addEmbedded at h
  split at h
  · cases h
    rfl
  · split at h
    · split at h
      · split at h
        · cases h
        · cases h
          exact openNames_embed _ _
      · cases h
        exact openNames_addText s text
    · split at h
      · cases h
      · cases h
        exact openNames_embed _ _

theorem openNames_flush (h : s.flush e = .ok s') : s'.tree.openNames = s.tree.openNames := by
  unfold flush at h
  dsimp only at h
  split at h
  · have hnames := openNames_addEmbedded h
    exact hnames
  · cases h
    exact openNames_addKeywords e _ s.buffer

end Texts

section Steps

variable {e : ScanSetting} {s s' : ScanState} {m : Rule.Match}

theorem openNames_stepOver (position : Nat) :
    (s.stepOver e position).tree.openNames = s.tree.openNames := by
  unfold stepOver
  dsimp only
  split <;> rfl

theorem openNames_pass : (s.pass e m).tree.openNames = s.tree.openNames := by
  unfold pass
  dsimp only
  split
  · exact openNames_stepOver _
  · rfl

theorem openNames_addBegin {mode : CompiledMode} (h : s.addBegin e mode m = .ok s') :
    s'.tree.openNames = s.tree.openNames := by
  unfold addBegin at h
  dsimp only at h
  split at h
  · cases h
    rfl
  · obtain ⟨t, ht, hs⟩ := bind_eq_ok.1 h
    cases hs
    have hnames := openNames_flush ht
    split at hnames <;> split <;> exact hnames

theorem openNames_addEnd (h : s.addEnd e m = .ok s') : s'.tree.openNames = s.tree.openNames := by
  unfold addEnd at h
  dsimp only at h
  split at h
  · obtain ⟨t, ht, hs⟩ := bind_eq_ok.1 h
    cases hs
    rw [openNames_addScoped, openNames_flush ht]
  · obtain ⟨t, ht, hs⟩ := bind_eq_ok.1 h
    cases hs
    rw [openNames_addParts, openNames_flush ht]
  · split at h
    · cases h
      rfl
    · obtain ⟨t, ht, hs⟩ := bind_eq_ok.1 h
      cases hs
      have hnames := openNames_flush ht
      split at hnames <;> split <;> exact hnames

/-- A mode opens its scope, if it has one, and nothing else. -/
theorem openNames_openMode (id : Nat) (groups : List (Option Span)) (notes : Scratch) :
    (s.openMode e id groups notes).tree.openNames =
      (e.scopeOf id).toList ++ s.tree.openNames := by
  unfold openMode ScanSetting.scopeOf
  dsimp only
  cases hscope : (e.grammar.mode id).scope with
  | none | some scope =>
    split
    · exact openNames_addScoped e _ _ _
    · exact openNames_addParts e _ _ _
    · rfl

end Steps

end ScanState

end SyntaxHighlight
