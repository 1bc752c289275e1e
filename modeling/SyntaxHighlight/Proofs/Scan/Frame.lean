import SyntaxHighlight.Scan.Run

/-! What adding text to the tree leaves as it is: the open modes, the buffer and the place of the
scan. -/
namespace SyntaxHighlight.ScanState

variable {e : ScanSetting} {s s' s'' : ScanState}

structure Steady (s s' : ScanState) : Prop where
  stack : s'.stack = s.stack
  buffer : s'.buffer = s.buffer
  firstRule : s'.firstRule = s.firstRule
  lastMatch : s'.lastMatch = s.lastMatch
  iterations : s'.iterations = s.iterations
  position : s'.position = s.position

namespace Steady

theorem update (s : ScanState) (tree : TreeBuilder) (relevance : Nat) (hits : Dictionary Nat)
    (continuations : Dictionary Continuation) :
    Steady s { s with tree, relevance, hits, continuations } := ⟨rfl, rfl, rfl, rfl, rfl, rfl⟩

theorem refl (s : ScanState) : Steady s s := .update s ..

theorem trans (h : Steady s s') (h' : Steady s' s'') : Steady s s'' :=
  ⟨h'.stack.trans h.stack, h'.buffer.trans h.buffer, h'.firstRule.trans h.firstRule,
    h'.lastMatch.trans h.lastMatch, h'.iterations.trans h.iterations,
    h'.position.trans h.position⟩

end Steady

variable (e s)

theorem steady_addScoped (scope text : String) : Steady s (s.addScoped e scope text) :=
  .update s ..

theorem steady_addKeyword (plain word : String) (keyword : Keyword) :
    Steady s (s.addKeyword e plain word keyword).1 := by
  unfold addKeyword
  dsimp only
  split <;> exact .update s ..

theorem steady_addWords (table : KeywordTable) (text : Text) (last : Nat) (plain : String)
    (spans : List Span) : Steady s (addWords e table text last plain spans s) := by
  induction spans generalizing s last plain with
  | nil => exact .update s ..
  | cons span spans ih =>
    obtain ⟨start, stop⟩ := span
    simp only [addWords]
    split
    · exact ih ..
    · exact (steady_addKeyword ..).trans (ih ..)

theorem steady_addKeywords (text : String) : Steady s (s.addKeywords e text) := by
  unfold addKeywords
  dsimp only
  split
  · exact steady_addWords ..
  · exact .update s ..

theorem steady_addParts (groups : List (Option Span)) (parts : List (Nat × Option String)) :
    Steady s (addParts e groups parts s) := by
  induction parts generalizing s with
  | nil => exact .refl _
  | cons part parts ih =>
    obtain ⟨group, scope⟩ := part
    simp only [addParts]
    split
    · exact ih _
    · split
      · exact (steady_addScoped ..).trans (ih _)
      · exact (steady_addKeywords ..).trans (ih _)

variable {e s}

theorem steady_addEmbedded {sub : SubLanguage} {text : String} {weight : Nat}
    (h : s.addEmbedded e sub text weight = .ok s') : Steady s s' := by
  unfold addEmbedded at h
  split at h
  · cases h
    exact .update s ..
  · split at h
    · split at h
      · split at h
        · cases h
        · cases h
          exact .update s ..
      · cases h
        exact .update s ..
    · split at h
      · cases h
      · cases h
        exact .update s ..

theorem steady_flush (h : s.flush e = .ok s') : Steady { s with buffer := "" } s' := by
  unfold flush at h
  dsimp only at h
  split at h
  · exact steady_addEmbedded h
  · cases h
    exact steady_addKeywords ..

theorem flush_buffer (h : s.flush e = .ok s') : s'.buffer = "" := (steady_flush h).buffer

end SyntaxHighlight.ScanState
