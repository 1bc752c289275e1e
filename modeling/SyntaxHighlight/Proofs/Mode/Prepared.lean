import SyntaxHighlight.Mode.Prepared
import SyntaxHighlight.Proofs.Outcome

/-! What the plain form of a mode has in common with the mode, and what changes leave as it was. -/
namespace SyntaxHighlight

namespace Extension

variable {m m' : Mode} {parent : Option Mode}

theorem apply_eq_ok {e : Extension} (h : e.apply m parent = .ok m') :
    m' = m ∨ e.rewrite.run (e.set m) parent = .ok m' := by
  unfold apply at h
  split at h
  · exact .inl (Except.ok.inj h).symm
  · split at h
    · cases h
    · exact .inr h

/-- A change leaves a part of every mode as it was. -/
def Leaves {α : Type} (e : Extension) (f : Mode → α) : Prop :=
  ∀ {m m' : Mode} {parent : Option Mode}, e.apply m parent = .ok m' → f m' = f m

theorem leaves_contains (e : Extension) : e.Leaves Mode.contains := by
  intro m m' parent h
  obtain rfl | hrewrite := apply_eq_ok h
  · rfl
  · exact e.rewrite.contains (e.set m) parent m' hrewrite

theorem leaves_starts (e : Extension) : e.Leaves Mode.starts := by
  intro m m' parent h
  obtain rfl | hrewrite := apply_eq_ok h
  · rfl
  · exact e.rewrite.starts (e.set m) parent m' hrewrite

end Extension

namespace Mode

variable {m m' m'' : Mode}

/-- The steps that spell out keywords, illegal text and scopes leave the rest of a mode alone. -/
structure Alike (m m' : Mode) : Prop where
  ending : m'.ending = m.ending
  endScope : m'.endScope = m.endScope
  contains : m'.contains = m.contains
  starts : m'.starts = m.starts
  variants : m'.variants = m.variants
  endsWithParent : m'.endsWithParent = m.endsWithParent
  skip : m'.skip = m.skip
  beforeMatch : m'.beforeMatch = m.beforeMatch
  onBegin : m'.onBegin = m.onBegin
  onEnd : m'.onEnd = m.onEnd

theorem Alike.trans (h : Alike m m') (h' : Alike m' m'') : Alike m m'' :=
  ⟨h'.ending.trans h.ending, h'.endScope.trans h.endScope, h'.contains.trans h.contains,
    h'.starts.trans h.starts, h'.variants.trans h.variants,
    h'.endsWithParent.trans h.endsWithParent, h'.skip.trans h.skip,
    h'.beforeMatch.trans h.beforeMatch, h'.onBegin.trans h.onBegin, h'.onEnd.trans h.onEnd⟩

theorem alike_nameScope (m : Mode) : Alike m m.nameScope := by
  unfold nameScope
  split <;> exact ⟨rfl, rfl, rfl, rfl, rfl, rfl, rfl, rfl, rfl, rfl⟩

theorem alike_takeBeginKeywords (hasParent : Bool) (m : Mode) :
    Alike m (m.takeBeginKeywords hasParent).1 := by
  unfold takeBeginKeywords
  split
  · split <;> exact ⟨rfl, rfl, rfl, rfl, rfl, rfl, rfl, rfl, rfl, rfl⟩
  · exact ⟨rfl, rfl, rfl, rfl, rfl, rfl, rfl, rfl, rfl, rfl⟩

theorem alike_joinIllegal (m : Mode) : Alike m m.joinIllegal := by
  unfold joinIllegal
  split <;> exact ⟨rfl, rfl, rfl, rfl, rfl, rfl, rfl, rfl, rfl, rfl⟩

theorem alike_setRelevance (m : Mode) : Alike m m.setRelevance :=
  ⟨rfl, rfl, rfl, rfl, rfl, rfl, rfl, rfl, rfl, rfl⟩

theorem alike_moveCaptures (m : Mode) : Alike m m.moveCaptures := by
  unfold moveCaptures
  split <;> exact ⟨rfl, rfl, rfl, rfl, rfl, rfl, rfl, rfl, rfl, rfl⟩

theorem alike_takeMatching (h : m.takeMatching = .ok m') : Alike m m' := by
  unfold takeMatching at h
  split at h
  · cases h
    exact ⟨rfl, rfl, rfl, rfl, rfl, rfl, rfl, rfl, rfl, rfl⟩
  · split at h
    · cases h
    · cases h
      exact ⟨rfl, rfl, rfl, rfl, rfl, rfl, rfl, rfl, rfl, rfl⟩

/-- A mode before its boundaries become single patterns. -/
def spelledOut (hasParent : Bool) (m : Mode) : Mode :=
  (m.takeBeginKeywords hasParent).1.joinIllegal.setRelevance.moveCaptures

theorem alike_spelledOut (hasParent : Bool) (m : Mode) : Alike m (m.spelledOut hasParent) :=
  (((alike_takeBeginKeywords hasParent m).trans (alike_joinIllegal _)).trans
    (alike_setRelevance _)).trans (alike_moveCaptures _)

variable {parent : Option Mode} {extensions : List Extension} {p : Prepared}

theorem prepare_eq_ok (h : m.prepare parent extensions = .ok p) :
    ∃ named wrapped changed begin ending,
      m.nameScope.takeMatching = .ok named ∧ named.wrapBeforeMatch = .ok wrapped ∧
      wrapped.extended extensions parent = .ok changed ∧
      p.mode = { changed.spelledOut parent.isSome with begin, ending } ∧
      (∃ flagReason scopeReason,
        tagBoundary (changed.spelledOut parent.isSome).begin
          (changed.spelledOut parent.isSome).beginScope
          (p.mode.skip || p.mode.excludeBegin || p.mode.returnBegin) flagReason scopeReason =
          .ok (begin, p.beginTagging)) ∧
      ∃ flagReason scopeReason,
        tagBoundary (changed.spelledOut parent.isSome).ending
          (changed.spelledOut parent.isSome).endScope
          (p.mode.skip || p.mode.excludeEnd || p.mode.returnEnd) flagReason scopeReason =
          .ok (ending, p.endTagging) := by
  unfold prepare at h
  obtain ⟨named, hnamed, h⟩ := bind_eq_ok.1 h
  obtain ⟨wrapped, hwrapped, h⟩ := bind_eq_ok.1 h
  obtain ⟨changed, hchanged, h⟩ := bind_eq_ok.1 h
  obtain ⟨⟨begin, beginTagging⟩, hbegin, h⟩ := bind_eq_ok.1 h
  obtain ⟨⟨ending, endTagging⟩, hending, h⟩ := bind_eq_ok.1 h
  cases h
  exact ⟨named, wrapped, changed, begin, ending, hnamed, hwrapped, hchanged, rfl,
    ⟨_, _, hbegin⟩, ⟨_, _, hending⟩⟩

/-- Parts are tagged only where no flag leaves the text to another mode. -/
theorem tagBoundary_parts {boundary boundary' : Option Boundary} {scope : Option Scope}
    {flagged : Bool} {flagReason scopeReason : String} {groups : List (Nat × Option String)}
    (h : tagBoundary boundary scope flagged flagReason scopeReason =
      .ok (boundary', some (.parts groups))) : flagged = false := by
  unfold tagBoundary at h
  split at h
  · cases flagged
    · rfl
    · cases h
  · cases h
  · cases h
  · cases h

theorem tagBoundary_of_none {boundary : Option Boundary} {scope : Option Scope} {flagged : Bool}
    {flagReason scopeReason : String} {tagging : Option Tagging}
    (h : tagBoundary none scope flagged flagReason scopeReason = .ok (boundary, tagging)) :
    boundary = none := by
  cases scope with
  | none =>
    cases h
    rfl
  | some scope => cases scope <;> cases h <;> rfl

theorem wrapBeforeMatch_of_none (hb : m.beforeMatch = none) : m.wrapBeforeMatch = .ok m := by
  simp only [wrapBeforeMatch, hb]
  rfl

/-- Where nothing is matched before a mode and nothing changes it, its plain form differs from it
in what is spelled out and in its boundaries. -/
theorem prepare_alike (hb : m.beforeMatch = none) (h : m.prepare parent [] = .ok p) :
    ∃ m' begin ending, Alike m m' ∧ p.mode = { m' with begin, ending } := by
  obtain ⟨named, wrapped, changed, begin, ending, hnamed, hwrapped, hchanged, hmode, -, -⟩ :=
    prepare_eq_ok h
  have halike := (alike_nameScope m).trans (alike_takeMatching hnamed)
  have hnone := halike.beforeMatch.trans hb
  cases (wrapBeforeMatch_of_none hnone).symm.trans hwrapped
  cases hchanged
  exact ⟨_, begin, ending, halike.trans (named.alike_spelledOut parent.isSome), hmode⟩

theorem prepare_callbacks (hb : m.beforeMatch = none) (h : m.prepare parent [] = .ok p) :
    p.mode.onBegin = m.onBegin ∧ p.mode.onEnd = m.onEnd := by
  obtain ⟨m', begin, ending, halike, hmode⟩ := prepare_alike hb h
  rw [hmode]
  exact ⟨halike.onBegin, halike.onEnd⟩

theorem prepare_contents (hb : m.beforeMatch = none) (h : m.prepare parent [] = .ok p) :
    p.mode.contains = m.contains ∧ p.mode.starts = m.starts := by
  obtain ⟨m', begin, ending, halike, hmode⟩ := prepare_alike hb h
  rw [hmode]
  exact ⟨halike.contains, halike.starts⟩

theorem extended_cons {e : Extension} {es : List Extension}
    (h : m.extended (e :: es) parent = .ok m') :
    ∃ next, e.apply m parent = .ok next ∧ next.extended es parent = .ok m' :=
  bind_eq_ok.1 h

/-- What all changes leave as it was is what it was. -/
theorem extended_eq {α : Type} {f : Mode → α} (hf : ∀ e ∈ extensions, e.Leaves f)
    (h : m.extended extensions parent = .ok m') : f m' = f m := by
  induction extensions generalizing m with
  | nil =>
    cases h
    rfl
  | cons e es ih =>
    obtain ⟨next, hnext, hrest⟩ := extended_cons h
    exact (ih (fun e he ↦ hf e (List.mem_cons_of_mem _ he)) hrest).trans
      (hf e List.mem_cons_self hnext)

theorem extended_contains (h : m.extended extensions parent = .ok m') :
    m'.contains = m.contains :=
  extended_eq (fun e _ ↦ e.leaves_contains) h

theorem extended_starts (h : m.extended extensions parent = .ok m') : m'.starts = m.starts :=
  extended_eq (fun e _ ↦ e.leaves_starts) h

end Mode

end SyntaxHighlight
