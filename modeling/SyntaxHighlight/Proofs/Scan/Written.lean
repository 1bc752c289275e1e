import SyntaxHighlight.Proofs.Outcome
import SyntaxHighlight.Proofs.Scan.Frame
import SyntaxHighlight.Proofs.Text.Slice
import SyntaxHighlight.Proofs.Tree.Content

/-! What emptying the buffer adds to the tree: all of it, whatever it is taken for. And what an end
adds to both. -/
namespace SyntaxHighlight

/-- Languages whose results have the text that was to be highlighted. -/
structure Languages.KeepText (l : Languages) : Prop where
  highlight : ∀ name text c r, l.highlight name text c = .ok r → r.tree.plainText = text
  detect : ∀ text names r, l.detect text names = .ok r → r.tree.plainText = text

/-- Words that a grammar searches for are found one after another. -/
def CompiledGrammar.WordsInOrder (cg : CompiledGrammar) : Prop :=
  ∀ i pattern text, (cg.mode i).keywordPattern = some pattern →
    Text.InOrder (pattern.findAll text) 0 text.size

/-- The groups of parts lie next to each other and cover a stretch of the text. -/
def Tiles (groups : List (Option Span)) : List (Nat × Option String) → Nat → Nat → Prop
  | [], start, stop => start = stop
  | (group, _) :: parts, start, stop =>
    ∃ middle, groups[group]?.join = some (start, middle) ∧ start ≤ middle ∧
      Tiles groups parts middle stop

theorem Tiles.le {groups : List (Option Span)} {parts : List (Nat × Option String)}
    {start stop : Nat} (h : Tiles groups parts start stop) : start ≤ stop := by
  induction parts generalizing start with
  | nil => exact Nat.le_of_eq h
  | cons part parts ih =>
    obtain ⟨middle, -, hle, hrest⟩ := h
    exact Nat.le_trans hle (ih hrest)

/-- The texts of the parts that took part in a match, one after another. -/
def partsText (text : Text) (groups : List (Option Span)) : List (Nat × Option String) → String
  | [] => ""
  | (group, _) :: parts =>
    match groups[group]?.join with
    | none => partsText text groups parts
    | some (start, stop) => text.slice start stop ++ partsText text groups parts

theorem Tiles.partsText_eq {groups : List (Option Span)} {parts : List (Nat × Option String)}
    {start stop : Nat} (h : Tiles groups parts start stop) (text : Text) :
    partsText text groups parts = text.slice start stop := by
  induction parts generalizing start with
  | nil =>
    cases h
    rw [partsText, Text.slice_self]
  | cons part parts ih =>
    obtain ⟨middle, hgroup, hle, hrest⟩ := h
    simp only [partsText, hgroup]
    rw [ih hrest, text.slice_append hle hrest.le]

namespace ScanState

variable {e : ScanSetting} {s s' : ScanState}

/-- The text in the tree and the text in the buffer. -/
def written (s : ScanState) : String := s.tree.content ++ s.buffer

theorem written_keep (text : String) : (s.keep text).written = s.written ++ text := by
  simp [written, keep, String.append_assoc]

variable (e s)

theorem content_addText (text : String) :
    (s.addText text).tree.content = s.tree.content ++ text :=
  s.tree.content_addText text

theorem content_addScoped (scope text : String) :
    (s.addScoped e scope text).tree.content = s.tree.content ++ text :=
  s.tree.content_addScoped _ text

theorem content_hit (word : String) (keyword : Keyword) :
    (s.hit e word keyword).tree.content = s.tree.content := by
  rfl

theorem content_addKeyword (plain word : String) (keyword : Keyword) :
    (s.addKeyword e plain word keyword).1.tree.content ++ (s.addKeyword e plain word keyword).2 =
      s.tree.content ++ plain ++ word := by
  unfold addKeyword
  dsimp only
  split
  · rw [content_hit, content_addText]
  · rw [content_addScoped, content_hit, content_addText, String.append_empty]

theorem content_addWords (table : KeywordTable) (text : Text) {spans : List Span} {last : Nat}
    (h : Text.InOrder spans last text.size) (plain : String) :
    (addWords e table text last plain spans s).tree.content =
      s.tree.content ++ plain ++ text.rest last := by
  induction spans generalizing s last plain with
  | nil => rw [addWords, content_addText, String.append_assoc]
  | cons span spans ih =>
    obtain ⟨start, stop⟩ := span
    obtain ⟨hstart, hstop, hrest⟩ := h
    have hword : text.slice last start ++ text.slice start stop ++ text.rest stop =
        text.rest last := by
      rw [text.slice_append hstart hstop, Text.rest, Text.rest,
        text.slice_append (Nat.le_trans hstart hstop) hrest.le]
    rw [addWords]
    dsimp only
    split
    · rw [ih _ hrest, ← hword]
      simp only [String.append_assoc]
    · rw [ih _ hrest, content_addKeyword, ← hword]
      simp only [String.append_assoc]

theorem content_addKeywords (h : e.grammar.WordsInOrder) (text : String) :
    (s.addKeywords e text).tree.content = s.tree.content ++ text := by
  unfold addKeywords
  dsimp only
  split
  · rename_i table pattern _ hpattern
    rw [content_addWords _ _ _ _ (h _ _ _ hpattern), Text.rest_ofString, String.append_empty]
  · exact content_addText s text

theorem content_addParts (hw : e.grammar.WordsInOrder) (groups : List (Option Span))
    (parts : List (Nat × Option String)) :
    (addParts e groups parts s).tree.content =
      s.tree.content ++ partsText e.text groups parts := by
  induction parts generalizing s with
  | nil => rw [addParts, partsText, String.append_empty]
  | cons part parts ih =>
    obtain ⟨group, scope⟩ := part
    rw [addParts, partsText]
    cases groups[group]?.join with
    | none => exact ih s
    | some span =>
      rw [ih]
      cases scope with
      | none => rw [content_addKeywords e s hw, String.append_assoc]
      | some scope => rw [content_addScoped, String.append_assoc]

variable {e s}

theorem content_embed (result : HighlightResult) (weight : Nat) :
    (s.embed result weight).tree.content = s.tree.content ++ result.tree.plainText :=
  s.tree.content_embed _ _

theorem content_addEmbedded (h : e.languages.KeepText) {sub : SubLanguage} {text : String}
    {weight : Nat} (hs : s.addEmbedded e sub text weight = .ok s') :
    s'.tree.content = s.tree.content ++ text := by
  unfold addEmbedded at hs
  split at hs
  · cases hs
    simp_all
  · split at hs
    · split at hs
      · split at hs
        · cases hs
        · rename_i result hresult
          cases hs
          rw [content_embed, h.highlight _ _ _ _ hresult]
      · cases hs
        exact content_addText s text
    · split at hs
      · cases hs
      · rename_i result hresult
        cases hs
        rw [content_embed, h.detect _ _ _ hresult]

theorem content_flush (hw : e.grammar.WordsInOrder) (hl : e.languages.KeepText)
    (h : s.flush e = .ok s') : s'.tree.content = s.written := by
  unfold flush at h
  dsimp only at h
  split at h
  · have hcontent := content_addEmbedded hl h
    exact hcontent
  · cases h
    exact content_addKeywords e _ hw s.buffer

theorem written_flush (hw : e.grammar.WordsInOrder) (hl : e.languages.KeepText)
    (h : s.flush e = .ok s') : s'.written = s.written := by
  rw [written, flush_buffer h, content_flush hw hl h, String.append_empty]

/-- The text that an end adds: that of the match, or of those of its parts that took part. -/
def endText (e : ScanSetting) (mode : CompiledMode) (m : Rule.Match) : String :=
  match mode.endTagging with
  | some (.parts parts) => partsText e.text m.groups parts
  | _ => m.lexeme e.text

/-- An end that is not to be read again is in the tree or in the buffer. -/
theorem written_addEnd {m : Rule.Match} (hw : e.grammar.WordsInOrder) (hl : e.languages.KeepText)
    (hreturn : (s.topMode e).returnEnd = false) (h : s.addEnd e m = .ok s') :
    s'.written = s.written ++ endText e (s.topMode e) m := by
  have hflush {t u : ScanState} (ht : t.flush e = .ok u) :
      u.tree.content = t.written ∧ u.buffer = "" := ⟨content_flush hw hl ht, flush_buffer ht⟩
  cases htagging : (s.topMode e).endTagging with
  | some tagging =>
    cases tagging with
    | whole scope =>
      simp only [addEnd, htagging] at h
      obtain ⟨t, ht, hs⟩ := bind_eq_ok.1 h
      cases hs
      have hbuffer : (t.addScoped e scope (m.lexeme e.text)).buffer = "" := (hflush ht).2
      rw [written, content_addScoped, hbuffer, (hflush ht).1, String.append_empty, endText,
        htagging]
    | parts parts =>
      simp only [addEnd, htagging] at h
      obtain ⟨t, ht, hs⟩ := bind_eq_ok.1 h
      cases hs
      rw [written, content_addParts e _ hw, (steady_addParts e t m.groups parts).buffer,
        (hflush ht).1, (hflush ht).2, String.append_empty, endText, htagging]
  | none =>
    rw [endText, htagging]
    dsimp only
    cases hskip : (s.topMode e).skip with
    | true =>
      simp only [addEnd, htagging, hskip] at h
      cases h
      exact written_keep _
    | false =>
      cases hexclude : (s.topMode e).excludeEnd with
      | true =>
        simp only [addEnd, htagging, hskip, hexclude, Bool.or_true, if_true] at h
        obtain ⟨t, ht, hs⟩ := bind_eq_ok.1 h
        cases hs
        exact congrArg (· ++ m.lexeme e.text) (hflush ht).1
      | false =>
        simp only [addEnd, htagging, hskip, hexclude, hreturn] at h
        obtain ⟨t, ht, hs⟩ := bind_eq_ok.1 h
        cases hs
        exact (written_flush hw hl ht).trans (written_keep _)

end ScanState

end SyntaxHighlight
