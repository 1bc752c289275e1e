import SyntaxHighlight.Proofs.Mode.Prepared
import SyntaxHighlight.Proofs.Rule.Qualified

/-!
The begin of a mode that has to stand behind something. It is looked ahead to from there, so that
what stands before the mode is all that the begin takes.
-/
namespace SyntaxHighlight.Mode

open Regex Rule

variable {m m' : Mode} {parent : Option Mode} {extensions : List Extension} {p : Prepared}
  {before : String}

theorem takeMatching_begin (h : m.nameScope.takeMatching = .ok m') :
    m'.begin = (m.matching <|> m.begin) := by
  have hnamed : m.nameScope.matching = m.matching ∧ m.nameScope.begin = m.begin := by
    unfold nameScope
    split <;> exact ⟨rfl, rfl⟩
  rw [← hnamed.1, ← hnamed.2]
  unfold takeMatching at h
  split at h
  · rename_i hnone
    cases h
    simp [hnone]
  · rename_i b hsome
    split at h
    · cases h
    · cases h
      simp [hsome]

theorem wrapBeforeMatch_of_some (hbefore : m.beforeMatch = some before)
    (h : m.wrapBeforeMatch = .ok m') :
    m'.begin = some (.source (qualified before (Boundary.flattened m.begin))) ∧
      m'.beginKeywords = none := by
  simp only [wrapBeforeMatch, hbefore] at h
  split at h
  · cases h
  · cases h
    exact ⟨rfl, rfl⟩

theorem spelledOut_begin (hasParent : Bool) (h : m.beginKeywords = none) :
    (m.spelledOut hasParent).begin = m.begin := by
  have htake : (m.takeBeginKeywords hasParent).1 = m := by
    simp only [takeBeginKeywords, h]
  have hjoin : m.joinIllegal.begin = m.begin := by
    unfold joinIllegal
    split <;> rfl
  have hmove (m : Mode) : m.moveCaptures.begin = m.begin := by
    unfold moveCaptures
    split <;> rfl
  rw [spelledOut, htake, hmove]
  exact hjoin

theorem qualified_ne_empty (before own : String) : qualified before own ≠ "" := by
  rw [ne_eq, ← String.toList_inj, toList_qualified]
  simp [aheadText]

theorem tagBoundary_source {source : String} {scope : Option Scope} {flagged : Bool}
    {flagReason scopeReason : String} {boundary : Option Boundary} {tagging : Option Tagging}
    (h : tagBoundary (some (.source source)) scope flagged flagReason scopeReason =
      .ok (boundary, tagging)) : boundary = some (.source source) := by
  cases scope with
  | none =>
    cases h
    rfl
  | some scope => cases scope <;> cases h <;> rfl

/-- A mode that has to stand behind something begins with that, looking ahead to its own begin. -/
theorem prepare_beginSource? (hbefore : m.beforeMatch = some before)
    (hleaves : ∀ e ∈ extensions, e.Leaves begin ∧ e.Leaves beginKeywords)
    (h : m.prepare parent extensions = .ok p) :
    p.beginSource? = some (qualified before (Boundary.flattened (m.matching <|> m.begin))) := by
  obtain ⟨named, wrapped, changed, begin, ending, hnamed, hwrapped, hchanged, hmode, hbegin, -⟩ :=
    prepare_eq_ok h
  have hnamedBefore : named.beforeMatch = some before :=
    ((alike_nameScope m).trans (alike_takeMatching hnamed)).beforeMatch.trans hbefore
  obtain ⟨hsource, hkeywords⟩ := wrapBeforeMatch_of_some hnamedBefore hwrapped
  have hsame : changed.begin = wrapped.begin :=
    extended_eq (fun e he ↦ (hleaves e he).1) hchanged
  have hsameKeywords : changed.beginKeywords = wrapped.beginKeywords :=
    extended_eq (fun e he ↦ (hleaves e he).2) hchanged
  obtain ⟨_, _, htag⟩ := hbegin
  rw [spelledOut_begin _ (hsameKeywords.trans hkeywords), hsame, hsource,
    takeMatching_begin hnamed] at htag
  rw [Prepared.beginSource?, hmode]
  dsimp only
  rw [tagBoundary_source htag, Boundary.source?, if_neg (by simp [qualified_ne_empty])]

/-- A mode that has to stand behind something begins where that, as a pattern of its own, can end at
a place at which the begin of the mode, as a pattern of its own, matches; and the text up to there
is what it begins with. This takes that neither reaches into the other. -/
theorem begins_behind (hbefore : m.beforeMatch = some before)
    (hleaves : ∀ e ∈ extensions, e.Leaves begin ∧ e.Leaves beginKeywords)
    (h : m.prepare parent extensions = .ok p)
    {flags : Flags} {q b : Expr} (hq : Regex.compile before flags = .ok q)
    (hb : Regex.compile (Boundary.flattened (m.matching <|> m.begin)) flags = .ok b)
    (hqualifies : Qualifies flags q b) :
    ∃ source e, p.beginSource? = some source ∧ Regex.compile source flags = .ok e ∧
      ∀ text searchStart start,
        ((e.matchAt? text searchStart start).isSome ↔ ∃ stop,
          q.canEnd text searchStart start stop ∧ (b.matchAt? text searchStart stop).isSome) ∧
        ∀ spans, e.matchAt? text searchStart start = some spans → ∃ stop,
          spans.head? = some (some (start, stop)) ∧ q.canEnd text searchStart start stop ∧
            (b.matchAt? text searchStart stop).isSome := by
  obtain ⟨e, hcompile, hmatches⟩ := hqualifies.matches
  rw [compile_source hq, compile_source hb] at hcompile
  exact ⟨_, e, prepare_beginSource? hbefore hleaves h, hcompile, hmatches⟩

/-- The name of a function, behind the word that starts its definition. -/
def definition : Mode where
  scope := some (.name "title")
  matching := some (.source "\\w+")
  beforeMatch := some "fn\\s+"

theorem definition_qualifies : Regex.compile "fn\\s+" {} = .ok (ownExpr "fn\\s+") ∧
    Regex.compile "\\w+" {} = .ok (ownExpr "\\w+") ∧
    Qualifies {} (ownExpr "fn\\s+") (ownExpr "\\w+") := by
  have hword : Separable {} 0 "fn\\s+" (ownExpr "fn\\s+") :=
    separable_of_values [] (by cbv) (by cbv) (by cbv) (List.forall_mem_nil _)
  have hname : Separable {} 0 "\\w+" (ownExpr "\\w+") :=
    separable_of_values [] (by cbv) (by cbv) (by cbv) (List.forall_mem_nil _)
  have hgroups : (ownExpr "fn\\s+").groupCount = 0 := by cbv
  have hunbarred : (branch (3 * "fn\\s+".toList.length + 2) {}
      { rest := "fn\\s+".toList ++ ['\x29'] }).toOption.map (fun found ↦ found.2.rest) =
        some ['\x29'] := by
    cbv
  have hsource := compile_source hword.compiles
  have hsource' := compile_source hname.compiles
  obtain ⟨⟨node, s⟩, hbranch, hrest⟩ := eq_ok_of_map hunbarred
  generalize ownExpr "fn\\s+" = q, ownExpr "\\w+" = b at *
  refine ⟨hword.compiles, hname.compiles, hsource ▸ hword, hsource ▸ ⟨node, s, hbranch, hrest⟩,
    ?_, ?_, .inl hgroups, .inl hgroups⟩
  · rw [hsource]
    exact not_setsOptions (by decide)
  · rw [hgroups, hsource']
    exact hname

theorem definition_matches :
    (ownExpr "fn\\s+").canEnd (.ofString "fn main()") 0 0 3 = true ∧
      ((ownExpr "\\w+").matchAt? (.ofString "fn main()") 0 3).isSome = true ∧
      ((ownExpr "fn\\s+").matchAt? (.ofString "fn main()") 0 3).isSome = false := by
  cbv

/-- A definition begins at the word, with the name behind it; the name by itself begins none. -/
theorem definition_begins : ∃ p source e, definition.prepare none [] = .ok p ∧
    p.beginSource? = some source ∧ Regex.compile source {} = .ok e ∧
    (e.matchAt? (.ofString "fn main()") 0 0).isSome = true ∧
    (e.matchAt? (.ofString "fn main()") 0 3).isSome = false := by
  obtain ⟨hq, hb, hqualifies⟩ := definition_qualifies
  obtain ⟨hends, hname, hword⟩ := definition_matches
  generalize ownExpr "fn\\s+" = q, ownExpr "\\w+" = b at *
  obtain ⟨p, hp⟩ : ∃ p, definition.prepare none [] = .ok p := ⟨_, rfl⟩
  obtain ⟨source, e, hsource, hcompile, hmatches⟩ :=
    begins_behind (m := definition) rfl (List.forall_mem_nil _) hp hq hb hqualifies
  refine ⟨p, source, e, hp, hsource, hcompile, (hmatches _ _ _).1.2 ⟨3, hends, hname⟩, ?_⟩
  refine Bool.eq_false_of_not_eq_true fun hsome ↦ ?_
  obtain ⟨stop, hend, -⟩ := (hmatches _ _ _).1.1 hsome
  rw [← Bool.not_eq_true, q.isSome_matchAt?_iff] at hword
  exact hword ⟨stop, hend⟩

end SyntaxHighlight.Mode
