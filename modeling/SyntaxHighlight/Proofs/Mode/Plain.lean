import Mathlib
import SyntaxHighlight.Proofs.Mode.Overlay
import SyntaxHighlight.Proofs.Mode.Prepared

/-!
What becomes of a mode that is brought into its plain form: one of three mistakes is reported, or
nothing is left of what may be said in a shorter way, so that the plain form of a plain form is the
same mode again.
-/
namespace SyntaxHighlight

open Pattern

def Boundary.IsSequence (b : Option Boundary) : Prop := ∃ parts, b = some (.sequence parts)

def Boundary.parts : Option Boundary → List String
  | some (.sequence parts) => parts
  | _ => []

def Scope.IsForParts (s : Option Scope) : Prop := ∃ names, s = some (.captures names)

namespace Mode

variable (m : Mode)

def writtenBegin : Option Boundary := m.matching <|> m.begin

/-- The parts of the sequences that a mode begins and ends with. -/
def sequenceParts : List String := Boundary.parts m.writtenBegin ++ Boundary.parts m.ending

/-- What the mode matches is given along with a begin or an end. -/
def MatchesTwice : Prop := m.matching.isSome ∧ (m.begin.isSome ∨ m.ending.isSome)

/-- Two modes would have to begin where the mode has ended. -/
def StartsTwice : Prop := m.beforeMatch.isSome ∧ m.starts.isSome

/-- The begin is a sequence for whose parts there are no scopes, or whose text is left to another
mode. The words with which an inner mode begins take the place of its begin. -/
structure BeginUntagged (inner : Bool) : Prop where
  sequence : Boundary.IsSequence m.writtenBegin
  kept : inner = true → m.beginKeywords = none
  untagged : (m.skip || m.excludeBegin || m.returnBegin) = true ∨
    ¬ (m.className = none ∧ Scope.IsForParts m.scope ∨ Scope.IsForParts m.beginScope)

/-- The same for the end. -/
structure EndUntagged : Prop where
  sequence : Boundary.IsSequence m.ending
  untagged : (m.skip || m.excludeEnd || m.returnEnd) = true ∨ ¬ Scope.IsForParts m.endScope

def Untagged (inner : Bool) : Prop :=
  m.beforeMatch = none ∧ (m.BeginUntagged inner ∨ m.EndUntagged)

/-- A mode in which everything is spelled out. -/
structure IsPlain (inner : Bool) : Prop where
  className : m.className = none
  matching : m.matching = none
  beforeMatch : m.beforeMatch = none
  begin : ¬ Boundary.IsSequence m.begin
  ending : ¬ Boundary.IsSequence m.ending
  illegal : ∀ sources, m.illegal ≠ some (.anyOf sources)
  relevance : m.relevance.isSome
  scope : ¬ Scope.IsForParts m.scope
  beginKeywords : inner = true → m.beginKeywords = none

end Mode

namespace Mode

variable {m m' : Mode} {parent : Option Mode} {p : Prepared} {inner flagged : Bool}
  {b : Option Boundary} {s : Option Scope} {flagReason scopeReason : String}

/-! The boundaries. -/

theorem partGroups_total (names : List (Nat × String)) {parts : List String}
    (hparts : ∀ part ∈ parts, ∃ n, countGroups part = .ok n) (group part : Nat) :
    ∃ groups, partGroups names group part parts = .ok groups := by
  induction parts generalizing group part with
  | nil => exact ⟨[], rfl⟩
  | cons source parts ih =>
    obtain ⟨n, hn⟩ := hparts source List.mem_cons_self
    obtain ⟨groups, hgroups⟩ :=
      ih (fun part hpart ↦ hparts part (List.mem_cons_of_mem _ hpart)) (group + n + 1) (part + 1)
    exact ⟨_, bind_eq_ok.2 ⟨n, hn, bind_eq_ok.2 ⟨groups, hgroups, rfl⟩⟩⟩

/-- Where the groups of parts can be counted, a sequence can be tagged if its parts have scopes and
its text is not left to another mode. -/
theorem tagBoundary_cases (hparts : ∀ part ∈ Boundary.parts b, ∃ n, countGroups part = .ok n) :
    (Boundary.IsSequence b ∧ (flagged = true ∨ ¬ Scope.IsForParts s) ∧ ∃ reason,
      tagBoundary b s flagged flagReason scopeReason = .error (.multiCapture reason)) ∨
    (¬ (Boundary.IsSequence b ∧ (flagged = true ∨ ¬ Scope.IsForParts s)) ∧ ∃ b' tagging,
      tagBoundary b s flagged flagReason scopeReason = .ok (b', tagging) ∧
        ¬ Boundary.IsSequence b') := by
  rcases b with _ | source | parts
  · refine .inr ⟨?_, ?_⟩
    · rintro ⟨⟨_, hsequence⟩, -⟩
      cases hsequence
    · rcases s with _ | name | names
      all_goals exact ⟨none, _, rfl, nofun⟩
  · refine .inr ⟨?_, ?_⟩
    · rintro ⟨⟨_, hsequence⟩, -⟩
      cases hsequence
    · rcases s with _ | name | names
      all_goals exact ⟨some (.source source), _, rfl, nofun⟩
  · rcases s with _ | name | names
    · exact .inl ⟨⟨parts, rfl⟩, .inr nofun, _, rfl⟩
    · exact .inl ⟨⟨parts, rfl⟩, .inr nofun, _, rfl⟩
    · cases flagged with
      | true => exact .inl ⟨⟨parts, rfl⟩, .inl rfl, _, rfl⟩
      | false =>
        obtain ⟨groups, hgroups⟩ := partGroups_total names hparts 1 1
        refine .inr ⟨?_, some (.source (flattenSequence parts)), some (.parts groups), ?_, nofun⟩
        · rintro ⟨-, hflagged | hscope⟩
          · cases hflagged
          · exact hscope ⟨names, rfl⟩
        · exact bind_eq_ok.2 ⟨groups, hgroups, rfl⟩

theorem tagBoundary_single (hb : ¬ Boundary.IsSequence b) :
    ∃ tagging, tagBoundary b s flagged flagReason scopeReason = .ok (b, tagging) := by
  rcases b with _ | source | parts
  · rcases s with _ | name | names
    all_goals exact ⟨_, rfl⟩
  · rcases s with _ | name | names
    all_goals exact ⟨_, rfl⟩
  · exact absurd ⟨parts, rfl⟩ hb

/-! What is spelled out. -/

/-- The steps that spell out keywords, illegal text and scopes bring back nothing that the steps
before them have removed, and leave the flags alone. -/
structure Onward (m m' : Mode) : Prop where
  className : m'.className = m.className
  matching : m'.matching = m.matching
  flags : ∀ f, m'.isOn f = m.isOn f

theorem Onward.trans {m'' : Mode} (h : Onward m m') (h' : Onward m' m'') : Onward m m'' :=
  ⟨h'.className.trans h.className, h'.matching.trans h.matching,
    fun f ↦ (h'.flags f).trans (h.flags f)⟩

theorem onward_takeBeginKeywords (inner : Bool) (m : Mode) :
    Onward m (m.takeBeginKeywords inner).1 := by
  unfold takeBeginKeywords
  split
  · split <;> exact ⟨rfl, rfl, fun f ↦ by cases f <;> rfl⟩
  · exact ⟨rfl, rfl, fun _ ↦ rfl⟩

theorem onward_joinIllegal (m : Mode) : Onward m m.joinIllegal := by
  unfold joinIllegal
  split <;> exact ⟨rfl, rfl, fun f ↦ by cases f <;> rfl⟩

theorem onward_setRelevance (m : Mode) : Onward m m.setRelevance :=
  ⟨rfl, rfl, fun f ↦ by cases f <;> rfl⟩

theorem onward_moveCaptures (m : Mode) : Onward m m.moveCaptures := by
  unfold moveCaptures
  split <;> exact ⟨rfl, rfl, fun f ↦ by cases f <;> rfl⟩

theorem onward_spelledOut (inner : Bool) (m : Mode) : Onward m (m.spelledOut inner) :=
  (((onward_takeBeginKeywords inner m).trans (onward_joinIllegal _)).trans
    (onward_setRelevance _)).trans (onward_moveCaptures _)

theorem moveCaptures_begin (m : Mode) :
    m.moveCaptures.begin = m.begin ∧ m.moveCaptures.beginKeywords = m.beginKeywords ∧
      m.moveCaptures.illegal = m.illegal ∧ m.moveCaptures.relevance = m.relevance := by
  unfold moveCaptures
  split <;> exact ⟨rfl, rfl, rfl, rfl⟩

theorem joinIllegal_begin (m : Mode) :
    m.joinIllegal.begin = m.begin ∧ m.joinIllegal.beginKeywords = m.beginKeywords ∧
      m.joinIllegal.scope = m.scope ∧ m.joinIllegal.beginScope = m.beginScope := by
  unfold joinIllegal
  split <;> exact ⟨rfl, rfl, rfl, rfl⟩

theorem takeBeginKeywords_scope (inner : Bool) (m : Mode) :
    (m.takeBeginKeywords inner).1.scope = m.scope ∧
      (m.takeBeginKeywords inner).1.beginScope = m.beginScope := by
  unfold takeBeginKeywords
  split
  · split <;> exact ⟨rfl, rfl⟩
  · exact ⟨rfl, rfl⟩

theorem begin_spelledOut (inner : Bool) (m : Mode) :
    (m.spelledOut inner).begin = m.begin ∧ (inner = true → m.beginKeywords = none) ∨
      (∃ source, (m.spelledOut inner).begin = some (.source source)) ∧
        ¬ (inner = true → m.beginKeywords = none) := by
  rw [spelledOut, (moveCaptures_begin _).1]
  change (m.takeBeginKeywords inner).1.joinIllegal.begin = _ ∧ _ ∨ (∃ source,
    (m.takeBeginKeywords inner).1.joinIllegal.begin = some (.source source)) ∧ _
  rw [(joinIllegal_begin _).1]
  cases hwords : m.beginKeywords with
  | none => simp [takeBeginKeywords, hwords]
  | some words => cases inner <;> simp [takeBeginKeywords, hwords]

theorem isSequence_spelledOut (inner : Bool) (m : Mode) :
    Boundary.IsSequence (m.spelledOut inner).begin ↔
      Boundary.IsSequence m.begin ∧ (inner = true → m.beginKeywords = none) := by
  obtain ⟨hbegin, hkept⟩ | ⟨⟨source, hbegin⟩, hkept⟩ := begin_spelledOut inner m
  · rw [hbegin, and_iff_left hkept]
  · rw [hbegin]
    refine ⟨?_, fun h ↦ absurd h.2 hkept⟩
    rintro ⟨parts, hparts⟩
    cases hparts

theorem beginKeywords_spelledOut (m : Mode) : (m.spelledOut true).beginKeywords = none := by
  rw [spelledOut, (moveCaptures_begin _).2.1]
  change (m.takeBeginKeywords true).1.joinIllegal.beginKeywords = none
  rw [(joinIllegal_begin _).2.1]
  cases hwords : m.beginKeywords <;> simp [takeBeginKeywords, hwords]

theorem illegal_spelledOut (inner : Bool) (m : Mode) (sources : List String) :
    (m.spelledOut inner).illegal ≠ some (.anyOf sources) := by
  rw [spelledOut, (moveCaptures_begin _).2.2.1]
  change (m.takeBeginKeywords inner).1.joinIllegal.illegal ≠ _
  unfold joinIllegal
  split
  · nofun
  · rename_i hnone
    exact fun h ↦ hnone sources h

theorem relevance_spelledOut (inner : Bool) (m : Mode) :
    (m.spelledOut inner).relevance.isSome := by
  rw [spelledOut, (moveCaptures_begin _).2.2.2]
  cases hrelevance : (m.takeBeginKeywords inner).1.joinIllegal.relevance <;>
    simp [setRelevance, hrelevance]

theorem moveCaptures_scope (m : Mode) : ¬ Scope.IsForParts m.moveCaptures.scope ∧
    (Scope.IsForParts m.moveCaptures.beginScope ↔
      Scope.IsForParts m.scope ∨ Scope.IsForParts m.beginScope) := by
  rcases hscope : m.scope with _ | name | names <;>
    simp [moveCaptures, hscope, Scope.IsForParts]

theorem scope_spelledOut (inner : Bool) (m : Mode) :
    ¬ Scope.IsForParts (m.spelledOut inner).scope ∧
      (Scope.IsForParts (m.spelledOut inner).beginScope ↔
        Scope.IsForParts m.scope ∨ Scope.IsForParts m.beginScope) := by
  have hscopes : (m.takeBeginKeywords inner).1.joinIllegal.setRelevance.scope = m.scope ∧
      (m.takeBeginKeywords inner).1.joinIllegal.setRelevance.beginScope = m.beginScope :=
    ⟨(joinIllegal_begin _).2.2.1.trans (takeBeginKeywords_scope inner m).1,
      (joinIllegal_begin _).2.2.2.trans (takeBeginKeywords_scope inner m).2⟩
  have hmoved := moveCaptures_scope (m.takeBeginKeywords inner).1.joinIllegal.setRelevance
  rwa [hscopes.1, hscopes.2] at hmoved

/-! What is reported, and what is left. -/

/-- The mode with the scope that it is called by, and with one begin. -/
def settled (m : Mode) : Mode :=
  { m with
    scope := (m.className.map Scope.name).or m.scope
    className := none
    begin := m.writtenBegin
    matching := none }

theorem nameScope_eq (m : Mode) : m.nameScope =
    { m with scope := (m.className.map Scope.name).or m.scope, className := none } := by
  cases hname : m.className with
  | none =>
    cases m
    cases hname
    rfl
  | some name => simp [nameScope, hname]

theorem takeMatching_of_matchesTwice (h : m.MatchesTwice) :
    m.nameScope.takeMatching = .error .matchWithBeginEnd := by
  obtain ⟨hmatching, hboundary⟩ := h
  obtain ⟨b, hb⟩ := Option.isSome_iff_exists.1 hmatching
  rw [nameScope_eq, takeMatching]
  simp only [hb]
  rw [if_pos (by simpa using hboundary)]
  rfl

theorem takeMatching_settled (h : ¬ m.MatchesTwice) :
    m.nameScope.takeMatching = .ok m.settled := by
  rw [nameScope_eq, takeMatching]
  cases hmatching : m.matching with
  | none => simp [settled, writtenBegin, hmatching, pure, Except.pure]
  | some b =>
    have hboundary : ¬ (m.begin.isSome ∨ m.ending.isSome) := fun hb ↦ h ⟨by simp [hmatching], hb⟩
    simp only
    rw [if_neg (by simpa using hboundary)]
    simp [settled, writtenBegin, hmatching, pure, Except.pure]

/-- The begin of a mode as a single pattern, and how it is tagged. -/
def taggedBegin (m : Mode) : Except GrammarError (Option Boundary × Option Tagging) :=
  tagBoundary m.begin m.beginScope (m.skip || m.excludeBegin || m.returnBegin)
    "skip, excludeBegin, returnBegin not compatible with beginScope"
    "beginScope must be a capture map"

def taggedEnd (m : Mode) : Except GrammarError (Option Boundary × Option Tagging) :=
  tagBoundary m.ending m.endScope (m.skip || m.excludeEnd || m.returnEnd)
    "skip, excludeEnd, returnEnd not compatible with endScope"
    "endScope must be a capture map"

section Wrapped

variable {named wrapped : Mode}

theorem prepare_of_wrapped (hnamed : m.nameScope.takeMatching = .ok named)
    (hwrapped : named.wrapBeforeMatch = .ok wrapped) :
    m.prepare parent [] = (do
      let (begin, beginTagging) ← (wrapped.spelledOut parent.isSome).taggedBegin
      let (ending, endTagging) ← (wrapped.spelledOut parent.isSome).taggedEnd
      pure ⟨{ wrapped.spelledOut parent.isSome with begin, ending }, beginTagging, endTagging,
        (wrapped.takeBeginKeywords parent.isSome).2⟩) := by
  rw [prepare, hnamed]
  change (named.wrapBeforeMatch >>= _) = _
  rw [hwrapped]
  rfl

/-- A mode that is settled and, if need be, wrapped is brought into its plain form unless one of its
boundaries cannot be tagged. -/
theorem prepare_cases_of_wrapped (hnamed : m.nameScope.takeMatching = .ok named)
    (hwrapped : named.wrapBeforeMatch = .ok wrapped)
    (hparts : ∀ part ∈ Boundary.parts (wrapped.spelledOut parent.isSome).begin ++
      Boundary.parts (wrapped.spelledOut parent.isSome).ending, ∃ n, countGroups part = .ok n) :
    let s := wrapped.spelledOut parent.isSome
    let untagged := Boundary.IsSequence s.begin ∧
        ((s.skip || s.excludeBegin || s.returnBegin) = true ∨ ¬ Scope.IsForParts s.beginScope) ∨
      Boundary.IsSequence s.ending ∧
        ((s.skip || s.excludeEnd || s.returnEnd) = true ∨ ¬ Scope.IsForParts s.endScope)
    (untagged ∧ ∃ reason, m.prepare parent [] = .error (.multiCapture reason)) ∨
    (¬ untagged ∧ ∃ p begin ending, m.prepare parent [] = .ok p ∧
      p.mode = { s with begin, ending } ∧ ¬ Boundary.IsSequence begin ∧
        ¬ Boundary.IsSequence ending) := by
  intro s untagged
  rw [prepare_of_wrapped hnamed hwrapped]
  rcases tagBoundary_cases (fun part hpart ↦ hparts part (List.mem_append_left _ hpart)) with
    ⟨hsequence, huntagged, reason, hbegin⟩ | ⟨htagged, begin, beginTagging, hbegin, hsingle⟩
  · exact .inl ⟨.inl ⟨hsequence, huntagged⟩, reason, bind_eq_error.2 (.inl hbegin)⟩
  · rcases tagBoundary_cases (fun part hpart ↦ hparts part (List.mem_append_right _ hpart)) with
      ⟨hsequence, huntagged, reason, hending⟩ | ⟨htagged', ending, endTagging, hending, hsingle'⟩
    · exact .inl ⟨.inr ⟨hsequence, huntagged⟩, reason,
        bind_eq_error.2 (.inr ⟨_, hbegin, bind_eq_error.2 (.inl hending)⟩)⟩
    · refine .inr ⟨fun h ↦ h.elim htagged htagged', ⟨{ s with begin, ending }, beginTagging,
        endTagging, (wrapped.takeBeginKeywords parent.isSome).2⟩, begin, ending, ?_, rfl, hsingle,
        hsingle'⟩
      exact bind_eq_ok.2 ⟨_, hbegin, bind_eq_ok.2 ⟨_, hending, rfl⟩⟩

end Wrapped

theorem isPlain_spelledOut {begin ending : Option Boundary} (hclassName : m.className = none)
    (hmatching : m.matching = none) (hbefore : m.beforeMatch = none)
    (hbegin : ¬ Boundary.IsSequence begin) (hending : ¬ Boundary.IsSequence ending) :
    IsPlain { m.spelledOut inner with begin, ending } inner where
  className := (onward_spelledOut inner m).className.trans hclassName
  matching := (onward_spelledOut inner m).matching.trans hmatching
  beforeMatch := (alike_spelledOut inner m).beforeMatch.trans hbefore
  begin := hbegin
  ending := hending
  illegal := illegal_spelledOut inner m
  relevance := relevance_spelledOut inner m
  scope := (scope_spelledOut inner m).1
  beginKeywords hinner := hinner ▸ beginKeywords_spelledOut m

/-- Which boundaries cannot be tagged is seen in the mode as it is written. -/
theorem untagged_settled (hbefore : m.beforeMatch = none) :
    let s := m.settled.spelledOut inner
    (Boundary.IsSequence s.begin ∧
        ((s.skip || s.excludeBegin || s.returnBegin) = true ∨ ¬ Scope.IsForParts s.beginScope) ∨
      Boundary.IsSequence s.ending ∧
        ((s.skip || s.excludeEnd || s.returnEnd) = true ∨ ¬ Scope.IsForParts s.endScope)) ↔
      m.Untagged inner := by
  intro s
  have hflags := (onward_spelledOut inner m.settled).flags
  have hskip : s.skip = m.skip := hflags .skip
  have hexcludeBegin : s.excludeBegin = m.excludeBegin := hflags .excludeBegin
  have hexcludeEnd : s.excludeEnd = m.excludeEnd := hflags .excludeEnd
  have hreturnBegin : s.returnBegin = m.returnBegin := hflags .returnBegin
  have hreturnEnd : s.returnEnd = m.returnEnd := hflags .returnEnd
  have hending : s.ending = m.ending := (alike_spelledOut inner m.settled).ending
  have hendScope : s.endScope = m.endScope := (alike_spelledOut inner m.settled).endScope
  have hscope : Scope.IsForParts m.settled.scope ↔
      m.className = none ∧ Scope.IsForParts m.scope := by
    cases hname : m.className <;> simp [settled, hname, Scope.IsForParts]
  rw [isSequence_spelledOut, (scope_spelledOut inner m.settled).2, hscope, hskip, hexcludeBegin,
    hexcludeEnd, hreturnBegin, hreturnEnd, hending, hendScope, Untagged, and_iff_right hbefore]
  refine or_congr ⟨?_, ?_⟩ ⟨?_, ?_⟩
  · rintro ⟨⟨hsequence, hkept⟩, huntagged⟩
    exact ⟨hsequence, hkept, huntagged⟩
  · rintro ⟨hsequence, hkept, huntagged⟩
    exact ⟨⟨hsequence, hkept⟩, huntagged⟩
  · rintro ⟨hsequence, huntagged⟩
    exact ⟨hsequence, huntagged⟩
  · rintro ⟨hsequence, huntagged⟩
    exact ⟨hsequence, huntagged⟩

theorem parts_eq_nil (hb : ¬ Boundary.IsSequence b) : Boundary.parts b = [] := by
  rcases b with _ | source | parts
  · rfl
  · rfl
  · exact absurd ⟨parts, rfl⟩ hb

/-- What is made up before a mode is written in full, with a single begin and no end. -/
theorem wrapBeforeMatch_total {before : String} (hbefore : m.beforeMatch = some before)
    (hstarts : m.starts = none) : ∃ wrapped source, m.wrapBeforeMatch = .ok wrapped ∧
      wrapped.className = none ∧ wrapped.matching = none ∧ wrapped.beforeMatch = none ∧
      wrapped.begin = some (.source source) ∧ wrapped.ending = none := by
  simp only [wrapBeforeMatch, hbefore, hstarts, Option.isSome_none, Bool.false_eq_true, if_false]
  exact ⟨_, _, rfl, rfl, rfl, rfl, rfl, rfl⟩

theorem wrapBeforeMatch_of_startsTwice (h : m.StartsTwice) :
    m.wrapBeforeMatch = .error .beforeMatchWithStarts := by
  obtain ⟨before, hbefore⟩ := Option.isSome_iff_exists.1 h.1
  simp only [wrapBeforeMatch, hbefore]
  rw [if_pos h.2]
  rfl

/-- A mode has one of three mistakes, of which the first is reported, or a plain form. -/
theorem prepare_cases (parent : Option Mode)
    (hparts : ∀ part ∈ m.sequenceParts, ∃ n, countGroups part = .ok n) :
    m.MatchesTwice ∧ m.prepare parent [] = .error .matchWithBeginEnd ∨
    ¬ m.MatchesTwice ∧ m.StartsTwice ∧ m.prepare parent [] = .error .beforeMatchWithStarts ∨
    ¬ m.MatchesTwice ∧ ¬ m.StartsTwice ∧ m.Untagged parent.isSome ∧
      (∃ reason, m.prepare parent [] = .error (.multiCapture reason)) ∨
    ¬ m.MatchesTwice ∧ ¬ m.StartsTwice ∧ ¬ m.Untagged parent.isSome ∧
      ∃ p, m.prepare parent [] = .ok p ∧ p.mode.IsPlain parent.isSome := by
  by_cases hmatches : m.MatchesTwice
  · exact .inl ⟨hmatches, bind_eq_error.2 (.inl (takeMatching_of_matchesTwice hmatches))⟩
  have hnamed := takeMatching_settled hmatches
  by_cases hstarts : m.StartsTwice
  · have hwrapped : m.settled.wrapBeforeMatch = .error .beforeMatchWithStarts :=
      wrapBeforeMatch_of_startsTwice hstarts
    exact .inr (.inl ⟨hmatches, hstarts,
      bind_eq_error.2 (.inr ⟨_, hnamed, bind_eq_error.2 (.inl hwrapped)⟩)⟩)
  refine .inr (.inr ?_)
  cases hbefore : m.beforeMatch with
  | none =>
    have hwrapped : m.settled.wrapBeforeMatch = .ok m.settled := wrapBeforeMatch_of_none hbefore
    have hparts' : ∀ part ∈ Boundary.parts (m.settled.spelledOut parent.isSome).begin ++
        Boundary.parts (m.settled.spelledOut parent.isSome).ending,
        ∃ n, countGroups part = .ok n := by
      intro part hpart
      rw [(alike_spelledOut parent.isSome m.settled).ending] at hpart
      rcases List.mem_append.1 hpart with hpart | hpart
      · obtain ⟨hbegin, -⟩ | ⟨⟨source, hbegin⟩, -⟩ := begin_spelledOut parent.isSome m.settled
        · rw [hbegin] at hpart
          exact hparts part (List.mem_append_left _ hpart)
        · rw [hbegin] at hpart
          cases hpart
      · exact hparts part (List.mem_append_right _ hpart)
    rcases prepare_cases_of_wrapped hnamed hwrapped hparts' with
      ⟨huntagged, hreported⟩ | ⟨htagged, p, begin, ending, hp, hmode, hbegin, hending⟩
    · exact .inl ⟨hmatches, hstarts, (untagged_settled hbefore).1 huntagged, hreported⟩
    · refine .inr ⟨hmatches, hstarts, fun h ↦ htagged ((untagged_settled hbefore).2 h), p, hp, ?_⟩
      rw [hmode]
      exact isPlain_spelledOut rfl rfl hbefore hbegin hending
  | some before =>
    -- The mode that is made up has one pattern for its begin and no end, so it can be tagged.
    have hnone : m.settled.starts = none := by
      refine Option.not_isSome_iff_eq_none.1 fun h ↦ hstarts ⟨?_, h⟩
      rw [hbefore]
      rfl
    obtain ⟨wrapped, source, hwrapped, hclassName, hmatching, hplain, hbegin, hending⟩ :=
      wrapBeforeMatch_total (m := m.settled) hbefore hnone
    have hsingle : ¬ Boundary.IsSequence (wrapped.spelledOut parent.isSome).begin := by
      rw [isSequence_spelledOut, hbegin]
      exact fun h ↦ by simp [Boundary.IsSequence] at h
    have hendless : ¬ Boundary.IsSequence (wrapped.spelledOut parent.isSome).ending := by
      rw [(alike_spelledOut parent.isSome wrapped).ending, hending]
      exact fun h ↦ by simp [Boundary.IsSequence] at h
    have hparts' : ∀ part ∈ Boundary.parts (wrapped.spelledOut parent.isSome).begin ++
        Boundary.parts (wrapped.spelledOut parent.isSome).ending,
        ∃ n, countGroups part = .ok n := by
      rw [parts_eq_nil hsingle, parts_eq_nil hendless]
      exact List.forall_mem_nil _
    rcases prepare_cases_of_wrapped hnamed hwrapped hparts' with
      ⟨⟨hsequence, -⟩ | ⟨hsequence, -⟩, -⟩ | ⟨-, p, begin, ending, hp, hmode, hbegin', hending'⟩
    · exact absurd hsequence hsingle
    · exact absurd hsequence hendless
    · refine .inr ⟨hmatches, hstarts, fun h ↦ ?_, p, hp, ?_⟩
      · cases hbefore.symm.trans h.1
      · rw [hmode]
        exact isPlain_spelledOut hclassName hmatching hplain hbegin' hending'

/-- Of a plain mode nothing is left to be spelled out. -/
theorem IsPlain.spelledOut_eq (h : m.IsPlain inner) : m.spelledOut inner = m := by
  have hwords : (m.takeBeginKeywords inner).1 = m := by
    unfold takeBeginKeywords
    split
    · rename_i words hwords
      cases inner with
      | true => cases hwords.symm.trans (h.beginKeywords rfl)
      | false => rfl
    · rfl
  have hillegal : m.joinIllegal = m := by
    unfold joinIllegal
    split
    · rename_i sources hsources
      exact absurd hsources (h.illegal sources)
    · rfl
  have hrelevance : m.setRelevance = m := by
    obtain ⟨n, hn⟩ := Option.isSome_iff_exists.1 h.relevance
    cases m
    cases hn
    rfl
  have hscope : m.moveCaptures = m := by
    unfold moveCaptures
    split
    · rename_i names hnames
      exact absurd ⟨names, hnames⟩ h.scope
    · rfl
  rw [spelledOut, hwords, hillegal, hrelevance, hscope]

theorem IsPlain.prepare_eq (h : m.IsPlain parent.isSome) :
    ∃ p, m.prepare parent [] = .ok p ∧ p.mode = m := by
  have hnamed : m.nameScope.takeMatching = .ok m := by
    have hname : m.nameScope = m := by simp [nameScope, h.className]
    rw [hname, takeMatching, h.matching]
    rfl
  obtain ⟨beginTagging, hbegin⟩ : ∃ tagging, m.taggedBegin = .ok (m.begin, tagging) :=
    tagBoundary_single h.begin
  obtain ⟨endTagging, hending⟩ : ∃ tagging, m.taggedEnd = .ok (m.ending, tagging) :=
    tagBoundary_single h.ending
  rw [prepare_of_wrapped hnamed (wrapBeforeMatch_of_none h.beforeMatch), h.spelledOut_eq]
  refine ⟨_, bind_eq_ok.2 ⟨_, hbegin, bind_eq_ok.2 ⟨_, hending, rfl⟩⟩, ?_⟩
  cases m
  rfl

/-- A mode for whose parts groups can be counted is refused with the first of three mistakes that it
has. If it has none, nothing is left in its plain form of what may be said in a shorter way, and the
plain form of that is the same mode. -/
theorem prepare_normalizes (m : Mode) (parent : Option Mode)
    (hparts : ∀ part ∈ m.sequenceParts, ∃ n, countGroups part = .ok n) :
    (m.prepare parent [] = .error .matchWithBeginEnd ↔ m.MatchesTwice) ∧
    (m.prepare parent [] = .error .beforeMatchWithStarts ↔ ¬ m.MatchesTwice ∧ m.StartsTwice) ∧
    ((∃ reason, m.prepare parent [] = .error (.multiCapture reason)) ↔
      ¬ m.MatchesTwice ∧ ¬ m.StartsTwice ∧ m.Untagged parent.isSome) ∧
    (∀ e, m.prepare parent [] = .error e →
      e = .matchWithBeginEnd ∨ e = .beforeMatchWithStarts ∨ ∃ reason, e = .multiCapture reason) ∧
    ∀ p, m.prepare parent [] = .ok p → p.mode.IsPlain parent.isSome ∧
      ∃ again, p.mode.prepare parent [] = .ok again ∧ again.mode = p.mode := by
  rcases prepare_cases parent hparts with ⟨hmatches, hprepare⟩ | ⟨hmatches, hstarts, hprepare⟩ |
    ⟨hmatches, hstarts, huntagged, reason, hprepare⟩ | ⟨hmatches, hstarts, htagged, p, hprepare, hp⟩
  · simp [hprepare, hmatches]
  · simp [hprepare, hmatches, hstarts]
  · simp [hprepare, hmatches, hstarts, huntagged]
  · simp only [hprepare, hmatches, hstarts, htagged, reduceCtorEq, not_false_eq_true, and_false,
      exists_const, false_imp_iff, implies_true, true_and, Except.ok.injEq, forall_eq']
    exact ⟨hp, hp.prepare_eq⟩

/-- A part that calls the pattern it is all of may be an expression by itself, and none with the
empty alternative with which its groups are counted: calling that takes no text. -/
example : (Regex.compile "a(b|\\g<0>\\g<1>)?").isOk = true ∧
    (countGroups "a(b|\\g<0>\\g<1>)?").isOk = false := by
  decide +kernel

def assignment : Mode where
  scope := some (.captures [(1, "attr"), (3, "number")])
  matching := some (.sequence ["\\w+", "=", "\\d+"])

theorem assignment_parts : countGroups "\\w+" = .ok 0 ∧ countGroups "=" = .ok 0 ∧
    countGroups "\\d+" = .ok 0 := by
  cbv

theorem assignment_normalizes :
    (∀ part ∈ assignment.sequenceParts, ∃ n, countGroups part = .ok n) ∧
      ∃ p again, assignment.prepare none [] = .ok p ∧ p.mode.IsPlain false ∧
        p.mode.prepare none [] = .ok again ∧ again.mode = p.mode := by
  obtain ⟨hname, hsign, hvalue⟩ := assignment_parts
  have hparts : ∀ part ∈ assignment.sequenceParts, ∃ n, countGroups part = .ok n := by
    intro part hpart
    simp only [assignment, sequenceParts, writtenBegin, Boundary.parts] at hpart
    rcases (by simpa using hpart : part = "\\w+" ∨ part = "=" ∨ part = "\\d+") with rfl | rfl | rfl
    · exact ⟨0, hname⟩
    · exact ⟨0, hsign⟩
    · exact ⟨0, hvalue⟩
  have hmatches : ¬ assignment.MatchesTwice := by simp [MatchesTwice, assignment]
  have hstarts : ¬ assignment.StartsTwice := by simp [StartsTwice, assignment]
  have htagged : ¬ assignment.Untagged false := by
    rintro ⟨-, ⟨-, -, hflag | hscope⟩ | ⟨⟨parts, hparts⟩, -⟩⟩
    · cases hflag
    · exact hscope (.inl ⟨rfl, _, rfl⟩)
    · cases hparts
  obtain ⟨htwice, hnext, huntagged, hothers, hplain⟩ := prepare_normalizes assignment none hparts
  refine ⟨hparts, ?_⟩
  cases hprepare : assignment.prepare none [] with
  | error e =>
    obtain rfl | rfl | ⟨reason, rfl⟩ := hothers e hprepare
    · exact absurd (htwice.1 hprepare) hmatches
    · exact absurd (hnext.1 hprepare).2 hstarts
    · exact absurd (huntagged.1 ⟨reason, hprepare⟩).2.2 htagged
  | ok p =>
    obtain ⟨hp, again, hagain, hsame⟩ := hplain p hprepare
    exact ⟨p, again, rfl, hp, hagain, hsame⟩

end Mode

end SyntaxHighlight
